import Mathlib.Algebra.BigOperators.Group.Finset.Basic
import RpcWire.Proofs.Metadata

/-!
# Metadata as a map from names to values

`Metadata` keeps all fields in one list. What look-ups can see of it is a finite
map from header names to lists of values, none of them empty (`Multimap`), and
each operation does to that map what one would write down for it: it puts a list
of values under one name, or appends the lists of two maps name by name.

`Script.multimap_build` takes this from one operation to any sequence of them,
and `readsAs_multimap` reads every observation off the map.
-/

namespace RpcWire

/-! ## Header names -/

/-- A token in lower case. -/
structure HeaderName where
  text : String
  legal : isFieldName text = true
  lower : Text.lower text = text
  deriving DecidableEq

namespace HeaderName

theorem ext {n other : HeaderName} (h : n.text = other.text) : n = other := by
  cases n; cases other; cases h; rfl

/-- The name that a key stands for, in whatever case it is written. -/
def ofKey? (key : String) : Option HeaderName :=
  if h : isFieldName key = true then
    some ⟨Text.lower key, (isFieldName_lower h).1, (isFieldName_lower h).2⟩
  else none

theorem ofKey?_eq_some_iff {key : String} {n : HeaderName} :
    ofKey? key = some n ↔ isFieldName key = true ∧ Text.lower key = n.text := by
  unfold ofKey?
  split
  · next legal =>
    rw [Option.some_inj]
    exact ⟨fun h => ⟨legal, congrArg HeaderName.text h⟩, fun h => ext h.2⟩
  · next illegal => exact ⟨fun h => (nomatch h), fun h => absurd h.1 illegal⟩

theorem ofKey?_eq_none_iff {key : String} : ofKey? key = none ↔ isFieldName key ≠ true := by
  unfold ofKey?
  split <;> simp [*]

/-- A name stands for itself. -/
theorem ofKey?_text (n : HeaderName) : ofKey? n.text = some n :=
  ofKey?_eq_some_iff.mpr ⟨n.legal, n.lower⟩

end HeaderName

/-! ## The map -/

/-- A finite map from header names to lists of values, none of them empty. -/
structure Multimap where
  /-- The values of a name; none, if the map does not have it. -/
  values : HeaderName → List Bytes
  /-- The names that the map has. -/
  names : Finset HeaderName
  mem_names : ∀ n, n ∈ names ↔ values n ≠ []

namespace Multimap

theorem ext {r other : Multimap} (h : ∀ n, r.values n = other.values n) : r = other := by
  obtain ⟨values, names, mem⟩ := r
  obtain ⟨values', names', mem'⟩ := other
  obtain rfl : values = values' := funext h
  obtain rfl : names = names' := Finset.ext fun n => (mem n).trans (mem' n).symm
  rfl

def empty : Multimap where
  values _ := []
  names := ∅
  mem_names := by simp

/-- The map with these values for a name, and without the name if they are none. -/
def put (r : Multimap) (n : HeaderName) (vs : List Bytes) : Multimap where
  values := Function.update r.values n vs
  names := if vs = [] then r.names.erase n else insert n r.names
  mem_names other := by
    by_cases same : other = n
    · subst same
      by_cases none : vs = [] <;> simp [none]
    · rw [Function.update_of_ne same, ← r.mem_names]
      by_cases none : vs = [] <;> simp [none, same]

/-- For each name the values of the one map, then those of the other. -/
def merge (r other : Multimap) : Multimap where
  values n := r.values n ++ other.values n
  names := r.names ∪ other.names
  mem_names n := by
    simp only [Finset.mem_union, r.mem_names, other.mem_names, ne_eq, List.append_eq_nil_iff,
      not_and_or]

/-- A text after the values of a name. A key that is no name, or a text that may not be a value,
changes nothing, here and in what follows. -/
def add (r : Multimap) (key text : String) : Multimap :=
  match HeaderName.ofKey? key, legalValue? text with
  | some n, some value => r.put n (r.values n ++ [value])
  | _, _ => r

def set (r : Multimap) (key text : String) : Multimap :=
  match HeaderName.ofKey? key, legalValue? text with
  | some n, some value => r.put n [value]
  | _, _ => r

/-- Of the texts a name gets those that may be values. -/
def setAll (r : Multimap) (key : String) (texts : List String) : Multimap :=
  match HeaderName.ofKey? key with
  | some n => r.put n (texts.filterMap legalValue?)
  | none => r

def erase (r : Multimap) (key : String) : Multimap :=
  match HeaderName.ofKey? key with
  | some n => r.put n []
  | none => r

/-- The values of the name that a key stands for. -/
def lookup (r : Multimap) (key : String) : List Bytes :=
  (HeaderName.ofKey? key).elim [] r.values

/-- How many values there are under all names. -/
def size (r : Multimap) : Nat := ∑ n ∈ r.names, (r.values n).length

end Multimap

namespace Metadata

/-- What look-ups can see of a map. -/
def multimap (m : Metadata) : Multimap where
  values n := m.values n.text
  names := (m.names.filterMap HeaderName.ofKey?).toFinset
  mem_names n := by
    rw [List.mem_toFinset, List.mem_filterMap]
    constructor
    · rintro ⟨name, hname, found⟩
      obtain ⟨lower, used⟩ := mem_names_iff.mp hname
      rwa [← (HeaderName.ofKey?_eq_some_iff.mp found).2, lower]
    · intro used
      exact ⟨n.text, mem_names_iff.mpr ⟨n.lower, used⟩, n.ofKey?_text⟩

theorem mem_names_multimap {m : Metadata} {n : HeaderName} :
    n ∈ m.multimap.names ↔ n.text ∈ m.names := by
  rw [m.multimap.mem_names, mem_names_iff]
  exact ⟨fun used => ⟨n.lower, used⟩, fun h => h.2⟩

theorem lookup_multimap (m : Metadata) (key : String) : m.multimap.lookup key = m.values key := by
  unfold Multimap.lookup
  cases hn : HeaderName.ofKey? key with
  | none => exact (values_of_illegal (HeaderName.ofKey?_eq_none_iff.mp hn)).symm
  | some n =>
    show m.values n.text = m.values key
    rw [← (HeaderName.ofKey?_eq_some_iff.mp hn).2]
    exact m.values_congr (lower_lower key)

/-! ## One operation -/

theorem multimap_empty : empty.multimap = .empty := Multimap.ext fun _ => rfl

theorem multimap_merge (m other : Metadata) :
    (m.merge other).multimap = m.multimap.merge other.multimap :=
  Multimap.ext fun n => values_merge m other n.text

/-- An operation that only changes the values of one name puts the new ones under it. -/
theorem multimap_eq_put {m changed : Metadata} {key : String} {n : HeaderName} {vs : List Bytes}
    (hn : HeaderName.ofKey? key = some n)
    (h : ∀ other, changed.values other =
      if Text.lower key = Text.lower other then vs else m.values other) :
    changed.multimap = m.multimap.put n vs := by
  apply Multimap.ext
  intro other
  show changed.values other.text = Function.update m.multimap.values n vs other
  rw [h, (HeaderName.ofKey?_eq_some_iff.mp hn).2, other.lower]
  by_cases same : other = n
  · rw [same, if_pos rfl, Function.update_self]
  · rw [if_neg fun named => same (HeaderName.ext named.symm), Function.update_of_ne same]
    rfl

/-- Each operation on fields is the operation of that name on the reference. -/
theorem multimap_add (m : Metadata) (key text : String) :
    (m.add key text).multimap = m.multimap.add key text := by
  unfold Multimap.add
  cases hn : HeaderName.ofKey? key with
  | none =>
    rw [add_of_refused (add?_eq_none_iff.mpr fun h => HeaderName.ofKey?_eq_none_iff.mp hn h.1)]
  | some n =>
    cases hv : legalValue? text with
    | none => rw [add_of_refused (add?_eq_none_iff.mpr fun h => legalValue?_eq_none_iff.mp hv h.2)]
    | some value =>
      obtain ⟨legal, lower⟩ := HeaderName.ofKey?_eq_some_iff.mp hn
      obtain ⟨fits, rfl⟩ := legalValue?_eq_some_iff.mp hv
      apply multimap_eq_put hn
      intro other
      rw [values_add legal fits]
      show _ = if _ then m.values n.text ++ _ else _
      split
      · next same => rw [m.values_congr (n.lower.trans (lower.symm.trans same))]
      · rw [List.append_nil]

theorem multimap_set (m : Metadata) (key text : String) :
    (m.set key text).multimap = m.multimap.set key text := by
  unfold Multimap.set
  cases hn : HeaderName.ofKey? key with
  | none =>
    rw [set_of_refused (set?_eq_none_iff.mpr fun h => HeaderName.ofKey?_eq_none_iff.mp hn h.1)]
  | some n =>
    cases hv : legalValue? text with
    | none => rw [set_of_refused (set?_eq_none_iff.mpr fun h => legalValue?_eq_none_iff.mp hv h.2)]
    | some value =>
      obtain ⟨fits, rfl⟩ := legalValue?_eq_some_iff.mp hv
      exact multimap_eq_put hn (values_set (HeaderName.ofKey?_eq_some_iff.mp hn).1 fits)

/-- There is no field under a text that is no name. -/
theorem erase_of_illegal {m : Metadata} {key : String} (h : isFieldName key ≠ true) :
    m.erase key = m := by
  apply ext
  apply List.filter_eq_self.mpr
  intro f hf
  apply decide_eq_true
  intro named
  have legal := (m.legal f hf).1
  rw [named] at legal
  exact h (isFieldName_of_lower legal)

theorem multimap_erase (m : Metadata) (key : String) :
    (m.erase key).multimap = m.multimap.erase key := by
  unfold Multimap.erase
  cases hn : HeaderName.ofKey? key with
  | none => rw [erase_of_illegal (HeaderName.ofKey?_eq_none_iff.mp hn)]
  | some n => exact multimap_eq_put hn (m.values_erase key)

theorem values_setAll (m : Metadata) {key : String} (texts : List String)
    (hk : isFieldName key = true) (other : String) :
    (m.setAll key texts).values other =
      if Text.lower key = Text.lower other then texts.filterMap legalValue?
      else m.values other := by
  rw [setAll, values_addAll _ _ hk, values_erase]
  split
  · rw [List.nil_append]
  · rw [List.append_nil]

theorem setAll_of_illegal {m : Metadata} {key : String} (h : isFieldName key ≠ true)
    (texts : List String) : m.setAll key texts = m := by
  rw [setAll, erase_of_illegal h]
  exact List.foldl_fixed' (fun text => add_of_refused (add?_eq_none_iff.mpr fun legal => h legal.1))
    texts

theorem multimap_setAll (m : Metadata) (key : String) (texts : List String) :
    (m.setAll key texts).multimap = m.multimap.setAll key texts := by
  unfold Multimap.setAll
  cases hn : HeaderName.ofKey? key with
  | none => rw [setAll_of_illegal (HeaderName.ofKey?_eq_none_iff.mp hn)]
  | some n =>
    exact multimap_eq_put hn (m.values_setAll texts (HeaderName.ofKey?_eq_some_iff.mp hn).1)

/-! ## Letter case -/

theorem make?_lower (key : String) (value : Bytes) :
    Field.make? (Text.lower key) value = Field.make? key value := by
  unfold Field.make?
  simp only [isFieldName_congr (lower_lower key), lower_lower]

/-- No operation looks at the case of the name that it is given. -/
theorem add_lower (m : Metadata) (key text : String) :
    m.add (Text.lower key) text = m.add key text := by
  rw [add, add, add?, add?, addBytes?, addBytes?, make?_lower]

theorem erase_lower (m : Metadata) (key : String) : m.erase (Text.lower key) = m.erase key := by
  rw [erase, erase, lower_lower]

theorem set_lower (m : Metadata) (key text : String) :
    m.set (Text.lower key) text = m.set key text := by
  rw [set, set, set?, set?, add?, add?, addBytes?, addBytes?, make?_lower, erase_lower]

theorem setAll_lower (m : Metadata) (key : String) (texts : List String) :
    m.setAll (Text.lower key) texts = m.setAll key texts := by
  simp only [setAll, erase_lower, add_lower]

/-! ## Observations -/

/-- Every observation of the one map is what the other map answers. -/
structure ReadsAs (m : Metadata) (r : Multimap) : Prop where
  text (key : String) : m.text? key = (r.lookup key).head?.bind visibleText?
  octets (key : String) : m.value? key = (r.lookup key).head?
  texts (key : String) : m.texts key = (r.lookup key).filterMap visibleText?
  contains (key : String) : m.contains key = true ↔ ∃ n ∈ r.names, HeaderName.ofKey? key = some n
  once : m.names.Nodup
  names : m.names.toFinset = r.names.image HeaderName.text
  size : m.size = r.size
  isEmpty : m.isEmpty = true ↔ r.names = ∅

theorem contains_eq_true_iff {m : Metadata} {key : String} :
    m.contains key = true ↔ m.values key ≠ [] := by
  simp [Metadata.contains]

theorem names_multimap (m : Metadata) :
    m.names.toFinset = m.multimap.names.image HeaderName.text := by
  ext name
  rw [List.mem_toFinset, Finset.mem_image]
  constructor
  · intro known
    obtain ⟨legal, lower⟩ := legal_of_mem_names known
    exact ⟨⟨name, legal, lower⟩, mem_names_multimap.mpr known, rfl⟩
  · rintro ⟨n, known, rfl⟩
    exact mem_names_multimap.mp known

theorem length_values (m : Metadata) (n : HeaderName) :
    (m.values n.text).length = (m.fields.map Field.name).count n.text := by
  unfold values
  rw [n.lower]
  induction m.fields with
  | nil => rfl
  | cons f fields ih =>
    rw [List.map_cons, List.count_cons]
    by_cases named : f.name = n.text <;> simp [named, ih]

/-- The fields are counted name by name. -/
theorem size_multimap (m : Metadata) : m.size = m.multimap.size := by
  calc m.size
    _ = (m.fields.map Field.name).length := (List.length_map ..).symm
    _ = ∑ name ∈ (m.fields.map Field.name).toFinset, (m.fields.map Field.name).count name :=
        (List.sum_toFinset_count_eq_length _).symm
    _ = ∑ name ∈ m.multimap.names.image HeaderName.text, (m.fields.map Field.name).count name := by
        rw [← names_multimap]
        refine Finset.sum_congr ?_ fun _ _ => rfl
        ext name
        simp [Metadata.names]
    _ = ∑ n ∈ m.multimap.names, (m.fields.map Field.name).count n.text :=
        Finset.sum_image fun _ _ _ _ same => HeaderName.ext same
    _ = m.multimap.size := Finset.sum_congr rfl fun n _ => (m.length_values n).symm

theorem isEmpty_eq_true_iff {m : Metadata} : m.isEmpty = true ↔ m.multimap.names = ∅ := by
  rw [← Finset.image_eq_empty (f := HeaderName.text), ← names_multimap]
  unfold Metadata.isEmpty Metadata.names
  cases m.fields with
  | nil => simp
  | cons f fields => simp [List.eraseDups_cons]

/-- All that can be observed of the fields is told by the reference. -/
theorem readsAs_multimap (m : Metadata) : m.ReadsAs m.multimap where
  text key := by rw [lookup_multimap]; rfl
  octets key := by rw [lookup_multimap]; rfl
  texts key := by rw [lookup_multimap]; rfl
  contains key := by
    rw [contains_eq_true_iff, ← lookup_multimap]
    unfold Multimap.lookup
    cases hn : HeaderName.ofKey? key with
    | none => simp
    | some n => simpa using (m.multimap.mem_names n).symm
  once := m.nodup_names
  names := m.names_multimap
  size := m.size_multimap
  isEmpty := isEmpty_eq_true_iff

theorem same_eq_true_iff {m other : Metadata} :
    m.same other = true ↔ m.multimap = other.multimap := by
  unfold same
  rw [List.all_eq_true]
  constructor
  · intro alike
    apply Multimap.ext
    intro n
    by_cases known : n.text ∈ m.names ++ other.names
    · exact eq_of_beq (alike n.text known)
    · rw [List.mem_append, not_or] at known
      show m.values n.text = other.values n.text
      rw [values_of_not_mem_names (by rw [n.lower]; exact known.1),
        values_of_not_mem_names (by rw [n.lower]; exact known.2)]
  · intro alike name _
    rw [beq_iff_eq, ← lookup_multimap, alike, lookup_multimap]

end Metadata

/-! ## Any sequence of operations -/

/-- How a map is made of an empty one. -/
inductive Script where
  | empty
  | add (before : Script) (key text : String)
  | set (before : Script) (key text : String)
  | setAll (before : Script) (key : String) (texts : List String)
  | erase (before : Script) (key : String)
  | merge (before other : Script)
  deriving DecidableEq

namespace Script

def build : Script → Metadata
  | .empty => .empty
  | .add before key text => before.build.add key text
  | .set before key text => before.build.set key text
  | .setAll before key texts => before.build.setAll key texts
  | .erase before key => before.build.erase key
  | .merge before other => before.build.merge other.build

/-- What the same operations make of a map from names to values. -/
def reference : Script → Multimap
  | .empty => .empty
  | .add before key text => before.reference.add key text
  | .set before key text => before.reference.set key text
  | .setAll before key texts => before.reference.setAll key texts
  | .erase before key => before.reference.erase key
  | .merge before other => before.reference.merge other.reference

/-- The operations with all keys in lower case. -/
def lowered : Script → Script
  | .empty => .empty
  | .add before key text => .add before.lowered (Text.lower key) text
  | .set before key text => .set before.lowered (Text.lower key) text
  | .setAll before key texts => .setAll before.lowered (Text.lower key) texts
  | .erase before key => .erase before.lowered (Text.lower key)
  | .merge before other => .merge before.lowered other.lowered

/-- A script carried out on fields and on the reference ends in the same multimap. -/
theorem multimap_build (s : Script) : s.build.multimap = s.reference := by
  induction s with
  | empty => exact Metadata.multimap_empty
  | add before key text ih => rw [build, Metadata.multimap_add, ih, reference]
  | set before key text ih => rw [build, Metadata.multimap_set, ih, reference]
  | setAll before key texts ih => rw [build, Metadata.multimap_setAll, ih, reference]
  | erase before key ih => rw [build, Metadata.multimap_erase, ih, reference]
  | merge before other ih ih' => rw [build, Metadata.multimap_merge, ih, ih', reference]

theorem build_lowered (s : Script) : s.lowered.build = s.build := by
  induction s with
  | empty => rfl
  | add before key text ih => rw [lowered, build, Metadata.add_lower, ih, build]
  | set before key text ih => rw [lowered, build, Metadata.set_lower, ih, build]
  | setAll before key texts ih => rw [lowered, build, Metadata.setAll_lower, ih, build]
  | erase before key ih => rw [lowered, build, Metadata.erase_lower, ih, build]
  | merge before other ih ih' => rw [lowered, build, ih, ih', build]

/-- Whatever operations make a map of an empty one, it reads as the multimap that the same
operations make, and two such maps are the same exactly if their multimaps are. The case of a key
does not matter, to an operation or to a look-up. A text is refused under a key that is no name, or
if it may not be a value, and then changes nothing; of a list of texts a name gets those that may be
values; and the values that another map has for a name come after its own. -/
theorem build_readsAs_reference (s : Script) :
    s.build.ReadsAs s.reference ∧
    (∀ t : Script, s.build.same t.build = true ↔ s.reference = t.reference) ∧
    (∀ t : Script, t.lowered = s.lowered → t.build = s.build) ∧
    (∀ key other, Text.lower key = Text.lower other →
      s.build.text? key = s.build.text? other ∧ s.build.value? key = s.build.value? other ∧
      s.build.texts key = s.build.texts other ∧ s.build.contains key = s.build.contains other) ∧
    (∀ key text, (s.build.add? key text = none ↔
        ¬ (isFieldName key = true ∧ (Utf8.encode text).all isFieldByte = true)) ∧
      (s.build.add? key text = none → s.build.add key text = s.build)) ∧
    (∀ key text, (s.build.set? key text = none ↔
        ¬ (isFieldName key = true ∧ (Utf8.encode text).all isFieldByte = true)) ∧
      (s.build.set? key text = none → s.build.set key text = s.build)) ∧
    (∀ key texts, isFieldName key = true →
      (s.build.setAll key texts).values key = texts.filterMap legalValue?) ∧
    ∀ (other : Metadata) (key : String),
      (s.build.merge other).values key = s.build.values key ++ other.values key := by
  refine ⟨?_, ?_, ?_, ?_, ?_, ?_, ?_, s.build.values_merge⟩
  · rw [← multimap_build]
    exact s.build.readsAs_multimap
  · intro t
    rw [Metadata.same_eq_true_iff, multimap_build, multimap_build]
  · intro t alike
    rw [← build_lowered, alike, build_lowered]
  · intro key other alike
    have values := s.build.values_congr alike
    simp only [Metadata.text?, Metadata.value?, Metadata.texts, Metadata.contains, values, and_self]
  · exact fun key text => ⟨Metadata.add?_eq_none_iff, Metadata.add_of_refused⟩
  · exact fun key text => ⟨Metadata.set?_eq_none_iff, Metadata.set_of_refused⟩
  · intro key texts legal
    rw [Metadata.values_setAll _ _ legal, if_pos rfl]

/-- Two fields under one name in three cases, one of them opaque, and a list with a text that may
not be a value. -/
theorem build_readsAs_reference_mixed :
    let s : Script := .merge (.add (.add .empty "X-Id" "1") "x-ID" "é") (.set .empty "x-id" "2")
    let t : Script := .merge (.add (.add .empty "x-id" "1") "x-id" "é") (.set .empty "X-ID" "2")
    s.build.texts "X-ID" = ["1", "2"] ∧ s.reference.size = 3 ∧ t.build = s.build ∧
      s.build.text? "X-ID" = s.build.text? "x-id" ∧ s.build.add "x id" "3" = s.build ∧
      (s.build.setAll "x-id" ["4", "5\n", "6"]).texts "x-id" = ["4", "6"] := by
  intro s t
  obtain ⟨read, -, cases, lookups, added, -, listed, -⟩ := s.build_readsAs_reference
  refine ⟨?_, ?_, cases t (by decide +kernel), (lookups _ _ (by decide +kernel)).1, ?_, ?_⟩
  · decide +kernel
  · rw [← read.size]
    decide +kernel
  · exact (added _ _).2 ((added _ _).1.mpr (by decide +kernel))
  · rw [Metadata.texts, listed _ _ (by decide +kernel)]
    decide +kernel

end Script

end RpcWire
