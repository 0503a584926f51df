/-!
# Checksums

The 32-bit cyclic redundancy check of gzip, one bit at a time from the lowest.
-/

namespace PatternAudit.Gzip

/-- Moves the remainder by one bit. -/
def crcShift (c : UInt32) : UInt32 :=
  if c &&& 1 = 1 then (c >>> 1) ^^^ 0xedb88320 else c >>> 1

def crcByte (c : UInt32) (b : UInt8) : UInt32 :=
  Nat.repeat crcShift 8 (c ^^^ b.toUInt32)

def crc32 (bytes : List UInt8) : UInt32 :=
  bytes.foldl crcByte 0xffffffff ^^^ 0xffffffff

end PatternAudit.Gzip
