import DtoForge.Digest.Crc32
import DtoForge.Digest.Sha1
import DtoForge.Packaging.Archive

/-! # ZIP — the bytes of an archive

An archive is written as one local record per entry, a directory of all entries, and an end record
that tells where the directory is. Contents are deflate streams of stored blocks, which any reader
expands. -/

namespace DtoForge.Packaging.Zip

/-- The bytes of a number, from the lowest. -/
def number (width n : Nat) : List UInt8 :=
  (List.range width).map fun i => UInt8.ofNat (n >>> (8 * i))

/-- A stored block of a deflate stream; the last one is marked. -/
def storedBlock (isLast : Bool) (bytes : List UInt8) : List UInt8 :=
  (if isLast then 1 else 0) :: number 2 bytes.length ++ number 2 (65535 - bytes.length) ++ bytes

/-- Blocks in order, the last one marked. A stream has at least one block. -/
def storedBlocks : List (List UInt8) → List UInt8
  | [] => storedBlock true []
  | [block] => storedBlock true block
  | block :: rest => storedBlock false block ++ storedBlocks rest

/-- Bytes as a deflate stream. -/
def deflated (bytes : List UInt8) : List UInt8 :=
  storedBlocks (Digest.chunks 65535 bytes)

/-- An entry with its bytes. -/
structure Member where
  name : List UInt8
  /-- Whether the name has characters beyond ASCII. -/
  isWide : Bool
  content : List UInt8
  packed : List UInt8
  method : Nat

/-- The bytes of an entry. -/
def Member.of (e : ArchiveEntry) : Member :=
  let content := e.text.toUTF8.toList
  { name := e.name.toUTF8.toList, isWide := e.name.toList.any fun c => c.toNat > 0x7f
    content, packed := deflated content, method := e.compression.number }

/-- The fields that the local record and the directory share: version, flags, method, time and date
(the first day of the format), check value, sizes and the length of the name. -/
def Member.header (m : Member) : List UInt8 :=
  number 2 20 ++ number 2 (if m.isWide then 0x800 else 0) ++ number 2 m.method ++ number 2 0 ++
    number 2 0x21 ++ number 4 (Digest.crc32 m.content).toNat ++ number 4 m.packed.length ++
    number 4 m.content.length ++ number 2 m.name.length

/-- The local record of an entry. -/
def Member.localRecord (m : Member) : List UInt8 :=
  number 4 0x04034b50 ++ m.header ++ number 2 0 ++ m.name ++ m.packed

/-- The directory record of an entry whose local record starts at an offset. -/
def Member.directoryRecord (m : Member) (offset : Nat) : List UInt8 :=
  number 4 0x02014b50 ++ number 2 0x314 ++ m.header ++ number 2 0 ++ number 2 0 ++ number 2 0 ++
    number 2 0 ++ number 4 (0o600 * 65536) ++ number 4 offset ++ m.name

/-- The directory records of entries whose local records start at an offset. -/
def directory (offset : Nat) : List Member → List UInt8
  | [] => []
  | m :: ms => m.directoryRecord offset ++ directory (offset + m.localRecord.length) ms

/-- The bytes of an archive. -/
def bytes (archive : Archive) : List UInt8 :=
  let members := archive.map Member.of
  let locals := members.flatMap Member.localRecord
  let directory := directory 0 members
  locals ++ directory ++ number 4 0x06054b50 ++ number 2 0 ++ number 2 0 ++
    number 2 members.length ++ number 2 members.length ++ number 4 directory.length ++
    number 4 locals.length ++ number 2 0

end DtoForge.Packaging.Zip
