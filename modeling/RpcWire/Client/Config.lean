import RpcWire.Call.Interceptor
import RpcWire.Call.Protocol
import RpcWire.Coding.Gzip
import RpcWire.Message.Encoding

/-!
# The configuration of a client

Everything a client needs to know about its peer and that all its calls share.
-/

namespace RpcWire

/-! ## GET -/

/-- Which calls without side effects are sent as a GET. -/
inductive GetPolicy where
  | never
  | always
  /-- Those whose message has at most so many octets. -/
  | upTo (maxBytes : Nat)
  deriving DecidableEq, Repr

def GetPolicy.standard : GetPolicy := never

/-- Whether a message of a length may be sent as a GET. -/
def GetPolicy.allows : GetPolicy → Nat → Bool
  | never, _ => false
  | always, _ => true
  | upTo maxBytes, length => length ≤ maxBytes

/-! ## Configurations -/

/-- The configuration of a client whose interceptors have a state `σ`. -/
structure ClientConfig (σ : Type) where
  /-- The URL up to the paths of methods, without a slash at the end. -/
  host : String
  family : Family
  encoding : Encoding
  /-- How requests are compressed. -/
  compression : Option Threshold
  /-- The pools that responses may be compressed with. -/
  pools : Registry
  get : GetPolicy
  interceptors : List (Interceptor σ)
  /-- The timeout of calls that do not set their own. -/
  timeout : Option Nanoseconds

namespace ClientConfig

variable {σ : Type}

def defaultTimeout : Nanoseconds := 10_000_000_000

/-- The configuration for a host where nothing else is said. -/
def new (host : String) : ClientConfig σ where
  host := Http.withoutTrailingSlashes host
  family := .connect
  encoding := .proto
  compression := none
  pools := .builtin
  get := .standard
  interceptors := []
  timeout := some defaultTimeout

/-- Compresses requests, and accepts responses compressed in the same way. -/
def withCompression (c : ClientConfig σ) (t : Threshold) : ClientConfig σ :=
  { c with compression := some t, pools := c.pools.register t.pool }

/-- Accepts responses compressed in one more way. -/
def withPool (c : ClientConfig σ) (p : Pool) : ClientConfig σ :=
  { c with pools := c.pools.register p }

def withInterceptor (c : ClientConfig σ) (i : Interceptor σ) : ClientConfig σ :=
  { c with interceptors := c.interceptors ++ [i] }

end ClientConfig

end RpcWire
