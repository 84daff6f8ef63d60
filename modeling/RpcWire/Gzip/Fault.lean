/-!
# What can be wrong with a gzip file

A file may end too early, in its header or trailer or in the compressed data;
it may be no gzip file at all; and its data or its checksums may be wrong.
-/

namespace RpcWire.Gzip

/-- Why a file cannot be decompressed. -/
inductive Fault where
  | endOfFile
  | badHeader
  | longField
  | unfinished
  | corrupt
  | checksum
  deriving DecidableEq, Repr

def Fault.message : Fault → String
  | endOfFile => "unexpected end of file"
  | badHeader => "invalid gzip header"
  | longField => "gzip header field too long"
  | unfinished => "incomplete deflate stream"
  | corrupt => "corrupt deflate stream"
  | checksum => "corrupt gzip stream does not have a matching checksum"

end RpcWire.Gzip
