/-!
# Sources of bytes

The bytes of a file come from a source, which ends or fails after the last of them. Whoever reads
the bytes meets the failure only where it asks for a byte that is not there.
-/

namespace PatternAudit

/-- Why a source can give no more bytes. -/
inductive SourceFailure
  | isDirectory
  | gzipHeader
  | gzipFieldTooLong
  | gzipCut
  | deflateCut
  | deflateCorrupt
  | gzipChecksum
  | other (message : String)
  deriving DecidableEq

def SourceFailure.message : SourceFailure → String
  | isDirectory => "Is a directory (os error 21)"
  | gzipHeader => "invalid gzip header"
  | gzipFieldTooLong => "gzip header field too long"
  | gzipCut => "unexpected end of file"
  | deflateCut => "incomplete deflate stream"
  | deflateCorrupt => "corrupt deflate stream"
  | gzipChecksum => "corrupt gzip stream does not have a matching checksum"
  | other message => message

/-- Bytes, and how they end: `failure` is `none` at a proper end. -/
structure Source where
  bytes : List UInt8
  failure : Option SourceFailure
  deriving DecidableEq

namespace Source

def ofBytes (bytes : List UInt8) : Source := ⟨bytes, none⟩

/-- A source that fails at once. -/
def failed (failure : SourceFailure) : Source := ⟨[], some failure⟩

end Source

end PatternAudit
