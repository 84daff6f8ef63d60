import Mathlib.Data.List.Dedup
import Mathlib.Data.List.Induction
import RpcWire.Proofs.Coding.Negotiate

/-!
# What a registry knows

A registry is what a sequence of registrations makes of it: each name once, where
it was registered last (`names_ofList`), with the pool that it was registered
with last (`find?_ofList`).

Two registries meet in a header. The names that the one advertises are offers
that the other reads as they were (`negotiate?_accept?`), and the name of the pool
that is picked is resolved by the side that advertised it
(`negotiated_resolves`).
-/

namespace RpcWire.Registry

/-! ## Registering -/

/-- Registering again moves a name to the end. -/
theorem names_register (r : Registry) (p : Pool) :
    (r.register p).names = r.names.filter (· ≠ p.name) ++ [p.name] := by
  simp [names, register, List.filter_map, Function.comp_def]

/-- The last pool registered under a name is the one found. -/
theorem find?_register (r : Registry) (p : Pool) (name : String) :
    (r.register p).find? name = if p.name = name then some p else r.find? name := by
  rw [find?, register, List.find?_append]
  by_cases same : p.name = name
  · -- the pools that had the name are gone
    have gone :
        (r.pools.filter fun q => q.name ≠ p.name).find? (fun q => q.name == name) = none := by
      apply List.find?_eq_none.mpr
      intro q hq
      simpa [same] using (List.mem_filter.mp hq).2
    rw [if_pos same, gone, Option.none_or]
    simp [same]
  · have kept : (r.pools.filter fun q => q.name ≠ p.name).find? (fun q => q.name == name) =
        r.find? name := by
      rw [List.find?_filter, find?]
      refine congrArg (List.find? · r.pools) (funext ?_)
      intro q
      by_cases named : q.name = name
      · simp [named, Ne.symm same]
      · simp [named]
    rw [if_neg same, kept]
    simp [same]

/-- A last member that was there before loses its other places. -/
theorem dedup_concat (names : List String) (name : String) :
    (names ++ [name]).dedup = names.dedup.filter (· ≠ name) ++ [name] := by
  induction names with
  | nil => rfl
  | cons other names ih =>
    rw [List.cons_append]
    by_cases later : other ∈ names
    · rw [List.dedup_cons_of_mem (List.mem_append_left _ later), List.dedup_cons_of_mem later, ih]
    · rw [List.dedup_cons_of_notMem later]
      by_cases same : other = name
      · rw [List.dedup_cons_of_mem (by simp [same]), ih, List.filter_cons_of_neg (by simp [same])]
      · rw [List.dedup_cons_of_notMem (by simp [later, same]), ih,
          List.filter_cons_of_pos (by simp [same]), List.cons_append]

theorem ofList_concat (ps : List Pool) (p : Pool) :
    ofList (ps ++ [p]) = (ofList ps).register p := by
  simp [ofList]

/-- Each name stands once, where it was registered last. -/
theorem names_ofList (ps : List Pool) : (ofList ps).names = (ps.map Pool.name).dedup := by
  induction ps using List.reverseRecOn with
  | nil => rfl
  | append_singleton ps p ih =>
    rw [ofList_concat, names_register, ih, List.map_append, List.map_singleton, dedup_concat]

/-- A name has the pool that it was registered with last. -/
theorem find?_ofList (ps : List Pool) (name : String) :
    (ofList ps).find? name = ps.reverse.find? fun p => p.name == name := by
  induction ps using List.reverseRecOn with
  | nil => rfl
  | append_singleton ps p ih =>
    rw [ofList_concat, find?_register, ih, List.reverse_append, List.reverse_singleton,
      List.singleton_append]
    by_cases same : p.name = name
    · rw [if_pos same, List.find?_cons_of_pos (by simpa using same)]
    · rw [if_neg same, List.find?_cons_of_neg (by simpa using same)]

theorem mem_names_iff {r : Registry} {name : String} :
    name ∈ r.names ↔ ∃ p, r.find? name = some p := by
  constructor
  · exact find?_of_mem_names
  · rintro ⟨p, found⟩
    rw [← name_of_find? found]
    exact List.mem_map_of_mem (List.mem_of_find?_eq_some found)

/-! ## Two registries -/

/-- A name that can be advertised and, alone in a header, stands for a pool. -/
structure IsCoding (name : String) : Prop where
  listed : IsListed name
  named : Names name

theorem choose?_names (r : Registry) {names : List String} (h : ∀ n ∈ names, n ≠ identity) :
    r.choose? (names.map fun n => ⟨n, false⟩) = names.findSome? r.find? := by
  induction names with
  | nil => rfl
  | cons name names ih =>
    rw [List.map_cons, choose?, List.findSome?_cons, ih fun n hn => h n (List.mem_cons_of_mem _ hn)]
    simp only [Bool.false_eq_true, if_false, if_neg (h name List.mem_cons_self)]
    cases r.find? name <;> rfl

/-- The pool for what another registry advertises is that of the first of its names that is known.
-/
theorem negotiate?_accept? (server : Registry) {client : Registry}
    (coding : ∀ n ∈ client.names, IsCoding n) :
    server.negotiate? client.accept? = client.names.findSome? server.find? := by
  rw [accept?_eq]
  by_cases none : client.names = []
  · rw [if_pos none, none]
    rfl
  · have solid : client.names.filter (· ≠ "") = client.names := by
      apply List.filter_eq_self.mpr
      intro n hn
      simpa using (coding n hn).named.1
    rw [if_neg none, negotiate?, Option.bind_some,
      offers_names none fun n hn => (coding n hn).listed, solid,
      choose?_names server fun n hn => (coding n hn).named.2]

/-- A registry holds each name once, in order of last registration, and finds the pool registered
last under it. Of two registries, the one picks from what the other advertises its own pool for the
first name that it knows, or none if they share no name; and every name that was advertised is
resolved by the side that advertised it to its own pool of the name, that of the pool that was
picked in particular. -/
theorem negotiated_resolves {client server : List Pool} (coding : ∀ p ∈ client, IsCoding p.name) :
    (∀ ps : List Pool, (ofList ps).names = (ps.map Pool.name).dedup ∧ (ofList ps).names.Nodup ∧
      (∀ name, name ∈ (ofList ps).names ↔ ∃ p ∈ ps, p.name = name) ∧
      ∀ name, (ofList ps).find? name = ps.reverse.find? fun p => p.name == name) ∧
    (ofList server).negotiate? (ofList client).accept? =
      (ofList client).names.findSome? (ofList server).find? ∧
    ((ofList server).negotiate? (ofList client).accept? = none ↔
      ∀ name ∈ (ofList client).names, name ∉ (ofList server).names) ∧
    (∀ name ∈ (ofList client).names, ∃ q, (ofList client).find? name = some q ∧
      (ofList client).resolve? (some name) = some q) ∧
    ∀ p, (ofList server).negotiate? (ofList client).accept? = some p →
      ∃ q, (ofList client).resolve? (some p.name) = some q ∧ q.name = p.name := by
  have coding : ∀ n ∈ (ofList client).names, IsCoding n := by
    intro n hn
    rw [names_ofList, List.mem_dedup] at hn
    obtain ⟨p, hp, rfl⟩ := List.mem_map.mp hn
    exact coding p hp
  have picked := negotiate?_accept? (ofList server) coding
  have resolved : ∀ name ∈ (ofList client).names, ∃ q, (ofList client).find? name = some q ∧
      (ofList client).resolve? (some name) = some q := by
    intro name hname
    obtain ⟨q, found⟩ := find?_of_mem_names hname
    have proper := coding name hname
    exact ⟨q, found, (resolve?_of_isListed _ proper.listed proper.named).trans found⟩
  refine ⟨?_, picked, ?_, resolved, ?_⟩
  · intro ps
    refine ⟨names_ofList ps, ?_, ?_, find?_ofList ps⟩
    · rw [names_ofList]
      exact List.nodup_dedup _
    · intro name
      rw [names_ofList, List.mem_dedup, List.mem_map]
  · rw [picked, List.findSome?_eq_none_iff]
    apply forall₂_congr
    intro name _
    rw [mem_names_iff, ← Option.ne_none_iff_exists', not_not]
  · intro p hp
    rw [picked] at hp
    obtain ⟨name, hname, found⟩ := List.exists_of_findSome?_eq_some hp
    obtain ⟨q, own, back⟩ := resolved name hname
    rw [name_of_find? found]
    exact ⟨q, back, name_of_find? own⟩

/-- Registered twice, `flip` comes after `hex` and has its second pool; it is the first of the two
that the other side knows. -/
theorem negotiated_resolves_shared :
    (∀ p ∈ [Pool.failing "flip", .hexadecimal "hex", .reversing "flip"], IsCoding p.name) ∧
    (ofList [.failing "flip", .hexadecimal "hex", .reversing "flip"]).names = ["hex", "flip"] ∧
    (ofList [.hexadecimal "br", .failing "flip"]).negotiate?
        (ofList [.failing "flip", .hexadecimal "hex", .reversing "flip"]).accept? =
      some (.failing "flip") ∧
    ∃ q, (ofList [.failing "flip", .hexadecimal "hex", .reversing "flip"]).resolve? (some "flip") =
      some q ∧ q.name = "flip" := by
  have coding : ∀ p ∈ [Pool.failing "flip", .hexadecimal "hex", .reversing "flip"],
      IsCoding p.name := by
    have flip : IsCoding "flip" :=
      ⟨⟨by simp, by simp, by decide +kernel⟩, by simp [Names, identity]⟩
    have hex : IsCoding "hex" := ⟨⟨by simp, by simp, by decide +kernel⟩, by simp [Names, identity]⟩
    simpa [Pool.failing, Pool.hexadecimal, Pool.reversing] using ⟨flip, hex, flip⟩
  obtain ⟨known, picked, -, -, resolved⟩ :=
    @negotiated_resolves _ [.hexadecimal "br", .failing "flip"] coding
  have names : (ofList [.failing "flip", .hexadecimal "hex", .reversing "flip"]).names =
      ["hex", "flip"] := (known _).1
  have flip : (ofList [.hexadecimal "br", .failing "flip"]).find? "flip" = some (.failing "flip") :=
    ((known _).2.2.2 "flip").trans rfl
  have chosen : (ofList [.hexadecimal "br", .failing "flip"]).negotiate?
      (ofList [.failing "flip", .hexadecimal "hex", .reversing "flip"]).accept? =
        some (.failing "flip") := by
    rw [picked, names]
    exact flip
  exact ⟨coding, names, chosen, resolved _ chosen⟩

end RpcWire.Registry
