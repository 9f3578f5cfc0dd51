/-! # CRC-32 — a check value for bytes

The remainder of the bytes, read as a polynomial over two elements with the lowest bit first,
modulo the polynomial that archives use. -/

namespace DtoForge.Digest

/-- One step of the division: shifts a bit out and subtracts the polynomial if the bit was set. -/
def crcShift (r : UInt32) : UInt32 :=
  if r &&& 1 = 1 then (r >>> 1) ^^^ 0xEDB88320 else r >>> 1

/-- Takes in one byte. -/
def crcByte (r : UInt32) (b : UInt8) : UInt32 :=
  let r := r ^^^ b.toUInt32
  crcShift (crcShift (crcShift (crcShift (crcShift (crcShift (crcShift (crcShift r)))))))

/-- The check value of bytes. -/
def crc32 (bytes : List UInt8) : UInt32 :=
  bytes.foldl crcByte 0xFFFFFFFF ^^^ 0xFFFFFFFF

end DtoForge.Digest
