import DtoForge.Text.Quoted

/-! # SHA-1 — a short name for a text

The SHA-1 digest over bytes: the message is padded to blocks of 64 bytes, each block is
expanded to eighty words and mixed into five chaining words. -/

namespace DtoForge.Digest

/-- The five chaining words. -/
structure Chain where
  a : UInt32
  b : UInt32
  c : UInt32
  d : UInt32
  e : UInt32

/-- The chaining words before the first block. -/
def Chain.start : Chain :=
  ⟨0x67452301, 0xEFCDAB89, 0x98BADCFE, 0x10325476, 0xC3D2E1F0⟩

/-- Rotation of a word to the left. -/
def rotate (n : UInt32) (x : UInt32) : UInt32 :=
  (x <<< n) ||| (x >>> (32 - n))

/-- The word whose bytes, from the highest, are given. -/
def wordOf (bytes : List UInt8) : UInt32 :=
  bytes.foldl (fun w b => (w <<< 8) ||| b.toUInt32) 0

/-- The eight bytes of a number, from the highest. -/
def lengthBytes (n : Nat) : List UInt8 :=
  (List.range 8).map fun i => UInt8.ofNat (n >>> (8 * (7 - i)))

/-- A message with its padding: a one bit, zeros, and the length in bits. -/
def padded (message : List UInt8) : List UInt8 :=
  let zeros := (119 - message.length % 64) % 64
  message ++ 0x80 :: List.replicate zeros 0 ++ lengthBytes (8 * message.length)

/-- Lists of `size` elements each, cut from the front; the last may be shorter. -/
def chunks {α : Type} (size : Nat) (xs : List α) : List (List α) :=
  (List.range ((xs.length + size - 1) / size)).map fun i => (xs.drop (i * size)).take size

/-- Extends the words of a block, newest first, by one word made from four earlier ones. -/
def extend (words : List UInt32) : List UInt32 :=
  rotate 1 ((words.getD 2 0) ^^^ (words.getD 7 0) ^^^ (words.getD 13 0) ^^^ (words.getD 15 0)) :: words

/-- The eighty words of a block. -/
def schedule (block : List UInt8) : List UInt32 :=
  (Nat.repeat extend 64 ((chunks 4 block).map wordOf).reverse).reverse

/-- One round of mixing with the word of that round. -/
def round (s : Chain) (i : Nat) (w : UInt32) : Chain :=
  let (f, k) : UInt32 × UInt32 :=
    if i < 20 then ((s.b &&& s.c) ||| (~~~s.b &&& s.d), 0x5A827999)
    else if i < 40 then (s.b ^^^ s.c ^^^ s.d, 0x6ED9EBA1)
    else if i < 60 then ((s.b &&& s.c) ||| (s.b &&& s.d) ||| (s.c &&& s.d), 0x8F1BBCDC)
    else (s.b ^^^ s.c ^^^ s.d, 0xCA62C1D6)
  ⟨rotate 5 s.a + f + s.e + k + w, s.a, rotate 30 s.b, s.c, s.d⟩

/-- Mixes one block into the chaining words. -/
def compress (s : Chain) (block : List UInt8) : Chain :=
  let t := (schedule block).zipIdx.foldl (fun s (w, i) => round s i w) s
  ⟨s.a + t.a, s.b + t.b, s.c + t.c, s.d + t.d, s.e + t.e⟩

/-- The digest of a message as five words. -/
def sha1 (message : List UInt8) : Chain :=
  (chunks 64 (padded message)).foldl compress Chain.start

/-- The digest of a text in forty hexadecimal digits. -/
def sha1Text (s : String) : String :=
  let t := sha1 s.toUTF8.toList
  String.ofList ([t.a, t.b, t.c, t.d, t.e].flatMap fun w => Text.hexDigits 8 w.toNat)

end DtoForge.Digest
