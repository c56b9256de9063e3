/-!
# Encodings of text

Text is sent as bytes, in units of one, two or four of them. A unit of two bytes is a code point or
half of a pair that writes one beyond them, and such a half may also be written alone where it means
nothing.

* `Text.joinHalves` — code points from units;
* `Text.ofPoints` — the text of code points, with a mark in the place of a half that stands alone;
* `Encoding`, `Encoding.ofMark?` — the encodings, and the one that a byte-order mark tells;
* `Encoding.points?` — the code points that bytes write;
* `Encoding.decode?`, `Encoding.looseText?` — the text of bytes, where no half may stand alone and
  where one may.

No text of this library holds half of a pair. Whoever makes a text from code points asks first, with
`Text.isHalf`, whether there is one among them, and refuses what it was asked to read.
-/

namespace Mockup.Text

/-! ### Pairs of halves -/

/-- Whether a code point is the first half of a pair that writes one character. -/
def isHighHalf (n : Nat) : Bool := 0xd800 ≤ n && n < 0xdc00

/-- Whether a code point is the second half of a pair. -/
def isLowHalf (n : Nat) : Bool := 0xdc00 ≤ n && n < 0xe000

/-- Whether a code point is half of a pair. -/
def isHalf (n : Nat) : Bool := isHighHalf n || isLowHalf n

/-- The code points of units, with pairs of halves joined. A half alone stays. -/
def joinHalves : List Nat → List Nat
  | high :: low :: rest =>
    if isHighHalf high && isLowHalf low then
      (0x10000 + (high - 0xd800) * 0x400 + (low - 0xdc00)) :: joinHalves rest
    else high :: joinHalves (low :: rest)
  | units => units

/-- The text of code points. Half of a pair is no character, and a mark keeps its place until what
it belongs to is refused. -/
def ofPoints (points : List Nat) : String :=
  .ofList (points.map fun n => if isHalf n then '\ufffd' else Char.ofNat n)

/-! ### Encodings -/

/-- The order of the bytes of a unit: the most or the least significant one first. -/
inductive ByteOrder where
  | big
  | little
  deriving DecidableEq

/-- **An encoding** of text: units of one byte, of two, or of four. -/
inductive Encoding where
  | utf8
  | utf16 (order : ByteOrder)
  | utf32 (order : ByteOrder)
  deriving DecidableEq

/-- The value of the bytes of a unit. -/
def ByteOrder.value : ByteOrder → List Nat → Nat
  | big, bytes => bytes.foldl (fun value byte => 0x100 * value + byte) 0
  | little, bytes => bytes.foldr (fun byte value => 0x100 * value + byte) 0

/-- The units of two bytes, unless a byte is left over. -/
def pairUnits? (order : ByteOrder) : List Nat → Option (List Nat)
  | [] => some []
  | a :: b :: rest => (pairUnits? order rest).map (order.value [a, b] :: ·)
  | [_] => none

/-- The units of four bytes, unless bytes are left over. -/
def quadUnits? (order : ByteOrder) : List Nat → Option (List Nat)
  | [] => some []
  | a :: b :: c :: d :: rest => (quadUnits? order rest).map (order.value [a, b, c, d] :: ·)
  | _ => none

/-- The code point of a byte-order mark. -/
def byteOrderMark : Nat := 0xfeff

namespace Encoding

/-- The encoding that a byte-order mark at the beginning of bytes tells. -/
def ofMark? : List Nat → Option Encoding
  | 0xef :: 0xbb :: 0xbf :: _ => some utf8
  | 0xff :: 0xfe :: 0 :: 0 :: _ => some (utf32 .little)
  | 0 :: 0 :: 0xfe :: 0xff :: _ => some (utf32 .big)
  | 0xff :: 0xfe :: _ => some (utf16 .little)
  | 0xfe :: 0xff :: _ => some (utf16 .big)
  | _ => none

/-- **The code points that bytes write**, unless the bytes do not make up whole units or write what
is no code point. -/
def points? (encoding : Encoding) (bytes : ByteArray) : Option (List Nat) :=
  let values := bytes.data.toList.map UInt8.toNat
  match encoding with
  | utf8 => (String.fromUTF8? bytes).map fun text => text.toList.map Char.toNat
  | utf16 order => (pairUnits? order values).map joinHalves
  | utf32 order => (quadUnits? order values).filter (·.all (· < 0x110000))

/-- Bytes with the mark in the place of each half of a pair that they write in three bytes. -/
def withMarks : List UInt8 → List UInt8
  | 0xed :: second :: third :: rest =>
    if 0xa0 ≤ second && second < 0xc0 && 0x80 ≤ third && third < 0xc0 then
      0xef :: 0xbf :: 0xbd :: withMarks rest
    else 0xed :: withMarks (second :: third :: rest)
  | byte :: rest => byte :: withMarks rest
  | [] => []

/-- The text of bytes in which halves of pairs may stand alone, also in units of one byte, and
whether any do. -/
def looseText? (encoding : Encoding) (bytes : ByteArray) : Option (String × Bool) :=
  match encoding with
  | utf8 =>
    let marked := withMarks bytes.data.toList
    (utf8.points? ⟨marked.toArray⟩).map fun points => (ofPoints points, marked != bytes.data.toList)
  | wide => (wide.points? bytes).map fun points => (ofPoints points, points.any isHalf)

/-- **The text of bytes**, in which no half of a pair may stand alone. -/
def decode? (encoding : Encoding) (bytes : ByteArray) : Option String := do
  let points ← encoding.points? bytes
  if points.any isHalf then none else some (ofPoints points)

end Encoding

/-- A text without a byte-order mark in front of it. -/
def withoutMark (text : String) : String :=
  match text.toList with
  | c :: rest => if c.toNat = byteOrderMark then .ofList rest else text
  | [] => text

end Mockup.Text
