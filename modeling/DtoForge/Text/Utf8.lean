/-! # UTF-8 — characters out of bytes

Bytes are decoded strictly. At the first byte that starts no well-formed sequence decoding stops
with the stretch at fault: a byte that starts nothing, a sequence broken by a byte that does not
continue it, or a sequence cut off by the end. -/

namespace DtoForge.Text

/-- Why bytes are no text. -/
inductive Utf8Cause where
  | startByte | continuationByte | endOfData
  deriving DecidableEq, Repr

/-- A cause with the stretch of bytes at fault: its first byte, its place and its length. -/
structure Utf8Error where
  cause : Utf8Cause
  first : UInt8
  start : Nat
  length : Nat
  deriving DecidableEq, Repr

/-- The wording of a cause. -/
def Utf8Cause.message : Utf8Cause → String
  | .startByte => "invalid start byte"
  | .continuationByte => "invalid continuation byte"
  | .endOfData => "unexpected end of data"

/-- The wording of an error with its place. -/
def Utf8Error.message (e : Utf8Error) : String :=
  let place :=
    if e.length = 1 then
      "byte 0x" ++ String.ofList (Nat.toDigits 16 e.first.toNat) ++ " in position " ++
        toString e.start
    else "bytes in position " ++ toString e.start ++ "-" ++ toString (e.start + e.length - 1)
  "'utf-8' codec can't decode " ++ place ++ ": " ++ e.cause.message

/-- The number of bytes of the sequence a byte starts; zero when it starts none. -/
def sequenceLength (b : UInt8) : Nat :=
  if b < 0x80 then 1
  else if b < 0xc2 then 0
  else if b < 0xe0 then 2
  else if b < 0xf0 then 3
  else if b < 0xf5 then 4
  else 0

/-- Whether a byte may follow the first byte of a sequence. Some first bytes narrow the range, so
that no character has two forms and none lies outside the code space. -/
def maySecond (first b : UInt8) : Bool :=
  let low : UInt8 := if first = 0xe0 then 0xa0 else if first = 0xf0 then 0x90 else 0x80
  let high : UInt8 := if first = 0xed then 0x9f else if first = 0xf4 then 0x8f else 0xbf
  low ≤ b && b ≤ high

/-- Whether a byte may stand third or fourth in a sequence. -/
def mayContinue (b : UInt8) : Bool :=
  0x80 ≤ b && b ≤ 0xbf

/-- How many of the bytes after the first one continue its sequence. -/
def continued (first : UInt8) (count : Nat) : List UInt8 → Nat
  | [] => 0
  | b :: bs =>
    if count = 0 then 0
    else if maySecond first b then 1 + ((bs.take (count - 1)).takeWhile mayContinue).length
    else 0

/-- The character of a well-formed sequence. -/
def charOfSequence (first : UInt8) (rest : List UInt8) : Char :=
  let head :=
    match rest.length with
    | 0 => first.toNat
    | 1 => first.toNat % 0x20
    | 2 => first.toNat % 0x10
    | _ => first.toNat % 0x08
  Char.ofNat (rest.foldl (fun n b => n * 64 + b.toNat % 64) head)

/-- Decodes bytes from a given place on. `skip` bytes belong to the character before. -/
def decodeFrom (position skip : Nat) : List UInt8 → Except Utf8Error (List Char)
  | [] => .ok []
  | b :: bs =>
    match skip with
    | skip + 1 => decodeFrom (position + 1) skip bs
    | 0 =>
      match sequenceLength b with
      | 0 => .error ⟨.startByte, b, position, 1⟩
      | size + 1 =>
        let count := continued b size bs
        if count = size then
          (decodeFrom (position + 1) size bs).map (charOfSequence b (bs.take size) :: ·)
        else
          let cause := if bs.length = count then .endOfData else .continuationByte
          .error ⟨cause, b, position, count + 1⟩

/-- Decodes bytes as a text. -/
def decodeUtf8 (bytes : List UInt8) : Except Utf8Error (List Char) :=
  decodeFrom 0 0 bytes

/-- Every way to end a line, made a line feed. -/
def plainLines : List Char → List Char
  | [] => []
  | '\r' :: '\n' :: cs => '\n' :: plainLines cs
  | '\r' :: cs => '\n' :: plainLines cs
  | c :: cs => c :: plainLines cs

end DtoForge.Text
