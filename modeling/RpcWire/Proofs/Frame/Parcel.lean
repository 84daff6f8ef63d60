import RpcWire.Proofs.Frame.Content
import RpcWire.Proofs.Frame.Packed

/-!
# Frames in a row

Frames that stand one after another are taken off one after another, whatever
follows them: those that a threshold may have compressed and those that are
written as they are, under flags of their own, in any mixture (`Parcel`).

How much is taken off a buffer is settled before its payload is looked at:

* `unpack_of_missing`: nothing as long as something is missing of the first
  frame, and then the failure says what;
* `unpack_of_wholeLength?`: the first frame otherwise, also if its payload
  cannot be decompressed.
-/

namespace RpcWire.Envelope

/-! ## Taking frames off -/

/-- Takes as many frames off a buffer as asked for: what is left, and what each of them was. -/
def unpackTimes (pool : Option Pool) : Nat → Bytes → Bytes × List (Except FrameFault Envelope)
  | 0, data => (data, [])
  | times + 1, data =>
    let (rest, first) := unpack data pool
    let (left, more) := unpackTimes pool times rest
    (left, first :: more)

/-- What is missing of the first frame of a buffer. -/
inductive Missing (data : Bytes) : FrameFault → Prop
  | header : data.length < headerSize → Missing data (.shortHeader headerSize data.length)
  | body {flags a b c d : UInt8} {available : Bytes} :
      data = flags :: a :: b :: c :: d :: available →
      available.length < Bytes.ofWord32 a b c d →
      Missing data (.shortBody (Bytes.ofWord32 a b c d) available.length)

/-- Either all of the first frame is there or something is missing. -/
theorem missing_of_wholeLength? {data : Bytes} (h : wholeLength? data = none) :
    ∃ fault, Missing data fault := by
  rcases data with _ | ⟨flags, _ | ⟨a, _ | ⟨b, _ | ⟨c, _ | ⟨d, available⟩⟩⟩⟩⟩
  case cons.cons.cons.cons.cons =>
    refine ⟨_, .body rfl ?_⟩
    by_contra enough
    have whole : wholeLength? (flags :: a :: b :: c :: d :: available) =
        some (headerSize + Bytes.ofWord32 a b c d) := by
      refine wholeLength?_eq_some_iff.mpr ⟨flags, _, rfl, rfl, ?_⟩
      simp only [List.length_cons, headerSize]
      omega
    rw [h] at whole
    cases whole
  all_goals exact ⟨_, .header (by simp [headerSize])⟩

theorem unpack_of_missing {data : Bytes} (nonempty : data ≠ []) {fault : FrameFault}
    (h : Missing data fault) (pool : Option Pool) : unpack data pool = (data, .error fault) := by
  cases h with
  | header short =>
    unfold unpack
    rw [if_neg nonempty]
    cases found : header? data with
    | ok header =>
      have long := length_of_header?_ok found
      omega
    | error fault =>
      unfold header? at found
      split at found
      · cases found
      · cases found
        rfl
  | @body flags a b c d available split short =>
    have header : header? data = .ok (flags, Bytes.ofWord32 a b c d) := by
      rw [split]
      rfl
    have length : data.length - headerSize = available.length := by
      rw [split]
      rfl
    rw [unpack_eq nonempty header, length, if_pos short]

/-- A buffer that begins with a whole frame loses exactly that frame. -/
theorem unpack_of_wholeLength? {data : Bytes} {n : Nat} (h : wholeLength? data = some n)
    (pool : Option Pool) :
    unpack data pool = (data.drop n,
      opened pool (flagsOf (data.take n)) ((data.take n).drop headerSize)) := by
  have taken := (isWhole_take h).unpack_append (data.drop n) pool
  rwa [List.take_append_drop] at taken

/-- What can be wrong with a frame that is all there. -/
theorem fault_of_opened {pool : Option Pool} {flags : UInt8} {payload : Bytes} {fault : FrameFault}
    (h : opened pool flags payload = .error fault) :
    ∃ p ∈ pool, ∃ reason, p.decompress payload = .error reason ∧ fault = .decompression reason := by
  cases pool with
  | none => cases h
  | some p =>
    unfold opened at h
    simp only at h
    split at h
    · split at h
      · cases h
      · next reason failed =>
        cases h
        exact ⟨p, rfl, reason, failed, rfl⟩
    · cases h

/-- A whole frame is not empty and ends in the buffer. -/
theorem bounds_of_wholeLength? {data : Bytes} {n : Nat} (h : wholeLength? data = some n) :
    0 < n ∧ n ≤ data.length := by
  obtain ⟨flags, length, -, rfl, enough⟩ := wholeLength?_eq_some_iff.mp h
  refine ⟨?_, enough⟩
  simp only [headerSize]
  omega

/-! ## Parcels -/

/-- A payload on its way into a frame. -/
inductive Parcel where
  /-- Compressed if a threshold asks for it. -/
  | packed (payload : Bytes) (threshold : Option Threshold)
  /-- Written as it is, under some flags. -/
  | marked (flags : UInt8) (payload : Bytes)

namespace Parcel

def write : Parcel → Except FrameFault Bytes
  | packed payload threshold => pack payload threshold
  | marked flags payload => .ok (frame flags payload)

/-- A threshold asks for compression, and the payload reaches it. -/
def Reaches (threshold : Option Threshold) (payload : Bytes) : Prop :=
  ∃ t ∈ threshold, t.minBytes ≤ payload.length

instance (threshold : Option Threshold) (payload : Bytes) :
    Decidable (Reaches threshold payload) := by
  unfold Reaches
  exact inferInstance

/-- What a parcel is to be read back as: its payload, marked as compressed if it was. -/
def envelope : Parcel → Envelope
  | packed payload threshold =>
    ⟨if Reaches threshold payload then compressedFlag else 0, payload⟩
  | marked flags payload => ⟨flags, payload⟩

/-- A pool gives back what was compressed, and nothing is marked as compressed that was not. -/
def UndoneBy (pool : Option Pool) : Parcel → Prop
  | packed _ threshold => Undoes pool threshold
  | marked flags _ => flags &&& compressedFlag = 0

/-- The pool of a parcel, if there is one, never fails to compress. -/
def Compresses : Parcel → Prop
  | packed _ threshold => ∀ t ∈ threshold, ∀ payload, ∃ packed, t.pool.compress payload = .ok packed
  | marked _ _ => True

/-- Of a payload only its length decides whether it is compressed. -/
theorem select?_of_reaches {threshold : Option Threshold} {payload : Bytes} :
    (threshold.bind fun t => t.select? payload) =
      if Reaches threshold payload then threshold.map Threshold.pool else none := by
  cases threshold with
  | none => simp
  | some t =>
    by_cases reached : t.minBytes ≤ payload.length
    · simp [Reaches, Threshold.select?, Threshold.admits, reached]
    · simp [Reaches, Threshold.select?, Threshold.admits, reached]

theorem exists_write {p : Parcel} (h : p.Compresses) : ∃ f, p.write = .ok f := by
  cases p with
  | marked flags payload => exact ⟨_, rfl⟩
  | packed payload threshold =>
    obtain ⟨f, written, -⟩ := pack_ok fun t ht => h t ht payload
    exact ⟨_, written⟩

/-- A parcel is taken out of its frame as what it was, and nothing else is taken. -/
theorem unpack_of_write {p : Parcel} {f : Bytes} (written : p.write = .ok f) {pool : Option Pool}
    (undone : p.UndoneBy pool) (fits : Fits (f.drop headerSize)) (rest : Bytes) :
    unpack (f ++ rest) pool = (rest, .ok p.envelope) := by
  cases p with
  | marked flags payload =>
    cases written
    exact unpack_frame fits (.inl undone) rest
  | packed payload threshold =>
    have written : pack payload threshold = .ok f := written
    unfold pack at written
    rw [select?_of_reaches] at written
    show unpack (f ++ rest) pool =
      (rest, .ok ⟨if Reaches threshold payload then compressedFlag else 0, payload⟩)
    by_cases reached : Reaches threshold payload
    · rw [if_pos reached] at written ⊢
      obtain ⟨t, rfl, -⟩ := reached
      simp only [Option.map_some] at written
      cases compressed : t.pool.compress payload with
      | error reason =>
        rw [compressed] at written
        cases written
      | ok packed =>
        rw [compressed] at written
        cases written
        obtain ⟨q, rfl, back⟩ := undone t rfl
        exact unpack_compressed fits (back payload packed compressed) rest
    · rw [if_neg reached] at written ⊢
      cases written
      have plain : (0 : UInt8) &&& compressedFlag = 0 := by decide
      exact unpack_frame fits (.inl plain) rest

theorem isCompressed_packed {payload : Bytes} {threshold : Option Threshold} :
    (packed payload threshold).envelope.isCompressed = true ↔ Reaches threshold payload := by
  show (if Reaches threshold payload then compressedFlag else 0) &&& compressedFlag ==
    compressedFlag ↔ Reaches threshold payload
  by_cases reached : Reaches threshold payload
  · simp [reached]
  · simp [reached, compressedFlag]

end Parcel

/-- Frames written one after another are unpacked one by one, whatever follows them. -/
theorem unpackTimes_of_written {parcels : List Parcel} {frames : List Bytes}
    (written : List.Forall₂ (fun p f => p.write = .ok f) parcels frames) {pool : Option Pool}
    (undone : ∀ p ∈ parcels, p.UndoneBy pool) (fits : ∀ f ∈ frames, Fits (f.drop headerSize))
    (tail : Bytes) :
    unpackTimes pool parcels.length (frames.flatten ++ tail) =
      (tail, parcels.map fun p => .ok p.envelope) := by
  induction written with
  | nil => rfl
  | @cons p f parcels frames written _ ih =>
    have first := Parcel.unpack_of_write written (undone p List.mem_cons_self)
      (fits f List.mem_cons_self) (frames.flatten ++ tail)
    have later := ih (fun q hq => undone q (List.mem_cons_of_mem _ hq))
      fun g hg => fits g (List.mem_cons_of_mem _ hg)
    rw [List.flatten_cons, List.append_assoc, List.length_cons, unpackTimes, first]
    simp only [later, List.map_cons]

theorem exists_written {parcels : List Parcel} (h : ∀ p ∈ parcels, p.Compresses) :
    ∃ frames, List.Forall₂ (fun p f => p.write = .ok f) parcels frames := by
  induction parcels with
  | nil => exact ⟨[], .nil⟩
  | cons p parcels ih =>
    obtain ⟨f, first⟩ := Parcel.exists_write (h p List.mem_cons_self)
    obtain ⟨frames, later⟩ := ih fun q hq => h q (List.mem_cons_of_mem _ hq)
    exact ⟨f :: frames, .cons first later⟩

/-! ## Round trip -/

/-- Parcels whose frames stand in a row, in front of anything, are taken off as they were: each with
its payload and its flags, a packed one marked as compressed exactly if it reached a threshold; what
follows them is left. Of a buffer that is not empty, unpacking takes nothing if something is missing
of the first frame, and says what, and else takes exactly the first frame, even if that cannot be
decompressed. -/
theorem parcels_arrive {parcels : List Parcel} {pool : Option Pool}
    (undone : ∀ p ∈ parcels, p.UndoneBy pool) :
    ((∀ p ∈ parcels, p.Compresses) →
      ∃ frames, List.Forall₂ (fun p f => p.write = .ok f) parcels frames) ∧
    (∀ frames, List.Forall₂ (fun p f => p.write = .ok f) parcels frames →
      (∀ f ∈ frames, Fits (f.drop headerSize)) → ∀ tail,
        unpackTimes pool parcels.length (frames.flatten ++ tail) =
          (tail, parcels.map fun p => .ok p.envelope)) ∧
    (∀ payload threshold, (Parcel.packed payload threshold).envelope.isCompressed = true ↔
      ∃ t ∈ threshold, t.minBytes ≤ payload.length) ∧
    ∀ (data : Bytes) (q : Option Pool), data ≠ [] →
      (wholeLength? data = none →
        ∃ fault, Missing data fault ∧ unpack data q = (data, .error fault)) ∧
      (∀ n, wholeLength? data = some n → (unpack data q).1 = data.drop n ∧
        ∀ fault, (unpack data q).2 = .error fault → ∃ p ∈ q, ∃ reason,
          p.decompress ((data.take n).drop headerSize) = .error reason ∧
            fault = .decompression reason) ∧
      ((unpack data q).1 ≠ data ↔ ∃ n, wholeLength? data = some n) := by
  refine ⟨exists_written, ?_, ?_, ?_⟩
  · intro frames written fits tail
    exact unpackTimes_of_written written undone fits tail
  · intro payload threshold
    exact Parcel.isCompressed_packed
  intro data q nonempty
  have kept : wholeLength? data = none →
      ∃ fault, Missing data fault ∧ unpack data q = (data, .error fault) := by
    intro unfinished
    obtain ⟨fault, missing⟩ := missing_of_wholeLength? unfinished
    exact ⟨fault, missing, unpack_of_missing nonempty missing q⟩
  refine ⟨kept, ?_, ?_⟩
  · intro n whole
    rw [unpack_of_wholeLength? whole]
    exact ⟨rfl, fun fault failed => fault_of_opened failed⟩
  · constructor
    · intro taken
      cases whole : wholeLength? data with
      | some n => exact ⟨n, rfl⟩
      | none =>
        obtain ⟨fault, -, same⟩ := kept whole
        rw [same] at taken
        exact absurd rfl taken
    · rintro ⟨n, whole⟩ same
      obtain ⟨positive, enough⟩ := bounds_of_wholeLength? whole
      rw [unpack_of_wholeLength? whole] at same
      have length := congrArg List.length same
      simp only [List.length_drop] at length
      omega

/-- Three parcels: too short for the threshold, long enough for it, and a block of trailers. -/
def mixedParcels : List Parcel :=
  [.packed [7] (some ⟨2, .reversing "flip"⟩), .packed [1, 2, 3] (some ⟨2, .reversing "flip"⟩),
    .marked trailersFlag []]

theorem parcels_arrive_mixed :
    unpackTimes (some (.reversing "flip")) 3
        ([[0, 0, 0, 0, 1, 7], [1, 0, 0, 0, 3, 3, 2, 1], [128, 0, 0, 0, 0]].flatten ++ [9, 9]) =
      ([9, 9], [.ok ⟨0, [7]⟩, .ok ⟨1, [1, 2, 3]⟩, .ok ⟨128, []⟩]) ∧
    ∃ fault, Missing [0, 0, 0, 0, 9, 7] fault ∧
      unpack [0, 0, 0, 0, 9, 7] none = ([0, 0, 0, 0, 9, 7], .error fault) := by
  have flips : Undoes (some (.reversing "flip")) (some ⟨2, .reversing "flip"⟩) := by
    rintro t ⟨rfl⟩
    exact ⟨_, rfl, Pool.reversing_roundTrips "flip"⟩
  have undone : ∀ p ∈ mixedParcels, p.UndoneBy (some (.reversing "flip")) := by
    intro p hp
    simp only [mixedParcels, List.mem_cons, List.not_mem_nil, or_false] at hp
    rcases hp with rfl | rfl | rfl
    · exact flips
    · exact flips
    · show trailersFlag &&& compressedFlag = 0
      decide
  have written : List.Forall₂ (fun p f => p.write = .ok f) mixedParcels
      [[0, 0, 0, 0, 1, 7], [1, 0, 0, 0, 3, 3, 2, 1], [128, 0, 0, 0, 0]] :=
    .cons rfl (.cons rfl (.cons rfl .nil))
  have fits : ∀ f ∈ [[0, 0, 0, 0, 1, 7], [1, 0, 0, 0, 3, 3, 2, 1], [128, 0, 0, 0, 0]],
      Fits (f.drop headerSize) := by
    simp [Fits, headerSize]
  obtain ⟨-, read, -, consumed⟩ := parcels_arrive undone
  refine ⟨?_, ?_⟩
  · exact read _ written fits [9, 9]
  · exact (consumed [0, 0, 0, 0, 9, 7] none (by decide)).1 (by decide)

end RpcWire.Envelope
