import RpcWire.Coding.Registry
import RpcWire.Gzip.Member

/-!
# The gzip pool

The pool that is there without being asked for. Its level is a wish for how
hard to compress, from 0 to 9.
-/

namespace RpcWire

/-- How hard to compress. -/
structure GzipLevel where
  value : Nat
  le_max : value ≤ 9
  deriving DecidableEq, Repr

/-- The nearest level. -/
def GzipLevel.clamp (n : Nat) : GzipLevel := ⟨min n 9, Nat.min_le_right n 9⟩

/-- The level where none is asked for. -/
def GzipLevel.standard : GzipLevel := ⟨6, by decide⟩

/-- Gzip files. Every level stores the payload as it is, which any reader accepts. -/
def Pool.gzip (_level : GzipLevel) : Pool where
  name := "gzip"
  compress payload := .ok (Gzip.compress payload)
  decompress file := (Gzip.decompress file).mapError Gzip.Fault.message

/-- The pool of a kind under a name; a gzip pool has its own name. -/
def Pool.ofKind? (kind name : String) : Option Pool :=
  match kind with
  | "gzip" => some (.gzip .standard)
  | "rev" => some (.reversing name)
  | "hexify" => some (.hexadecimal name)
  | "broken" => some (.failing name)
  | _ => none

/-- The pools that are there without being asked for. -/
def Registry.builtin : Registry := .ofList [.gzip .standard]

end RpcWire
