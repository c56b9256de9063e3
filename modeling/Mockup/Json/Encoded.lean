import Mockup.Json.Reader

/-!
# Reading JSON from bytes

Bytes do not tell how they are to be read as text. A byte-order mark decides, and without one the
zero bytes do, since a value begins with characters of ASCII, which in wider units are written with
zeros. There are two ways to look at the zeros, a tolerant and a strict one.

* `Json.encodingByZeros`, `Json.encodingByPattern?` — the tolerant and the strict way;
* `Json.readTolerant`, `Json.readStrict` — the value that bytes write.
-/

namespace Mockup.Json

open Text

/-- **The tolerant way**: a zero among the first two bytes tells that the units are wide and in
which order their bytes are, and the bytes next to it how wide. -/
def encodingByZeros : List Nat → Encoding
  | 0 :: 0 :: _ :: _ :: _ => .utf32 .big
  | 0 :: _ :: _ :: _ :: _ => .utf16 .big
  | _ :: 0 :: 0 :: 0 :: _ => .utf32 .little
  | _ :: 0 :: _ :: _ :: _ => .utf16 .little
  | [0, _] => .utf16 .big
  | [_, 0] => .utf16 .little
  | _ => .utf8

/-- **The strict way**: the zeros among the first four bytes must be those of characters of ASCII in
units of one width. -/
def encodingByPattern? : List Nat → Option Encoding
  | a :: b :: c :: d :: _ =>
    match a == 0, b == 0, c == 0, d == 0 with
    | false, false, false, false => some .utf8
    | true, false, true, false => some (.utf16 .big)
    | false, true, false, true => some (.utf16 .little)
    | true, true, true, false => some (.utf32 .big)
    | false, true, true, true => some (.utf32 .little)
    | _, _, _, _ => none
  | _ => some .utf8

/-- The first bytes, which tell the encoding. -/
def firstBytes (bytes : ByteArray) : List Nat := (bytes.data.toList.take 4).map UInt8.toNat

/-- A byte-order mark is left out where it told the encoding. -/
def unmarked (first : List Nat) (text : String) : String :=
  if (Encoding.ofMark? first).isSome then withoutMark text else text

/-- **The value that bytes write**, when they are looked at in the tolerant way. The bytes may write
halves of pairs that stand alone, which is told after the reading like that of a string. -/
def readTolerant (bytes : ByteArray) : Except ReadError Json :=
  let first := firstBytes bytes
  let encoding := (Encoding.ofMark? first).getD (encodingByZeros first)
  match encoding.looseText? bytes with
  | some (text, halved) => do
    let value ← read (unmarked first text)
    if halved then throw .loneHalf else return value
  | none => .error .undecodable

/-- **The value that bytes write**, when they are looked at in the strict way. -/
def readStrict (bytes : ByteArray) : Except ReadError Json :=
  let first := firstBytes bytes
  match Encoding.ofMark? first <|> encodingByPattern? first with
  | some encoding =>
    match encoding.decode? bytes with
    | some text => read (unmarked first text)
    | none => .error .undecodable
  | none => .error .undecodable

end Mockup.Json
