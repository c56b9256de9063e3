import Mockup.Text.Character

/-!
# The host of a link

Only two things about the host of a link matter: whether its brackets, which enclose a numeric
address, are in order, and whether it has characters that would turn into separators of a link when
the host is normalized.

* `Link.isAddress` — the notation of a numeric address of 128 bits;
* `Link.isBracketedHost` — what may stand between brackets;
* `Link.isHost` — whether the host of a link is in order.
-/

namespace Mockup.Link

open Text

/-- The parts of a text between the occurrences of a separator. -/
def splitAtEach (separator : Char) : List Char → List (List Char)
  | [] => [[]]
  | c :: rest =>
    match splitAtEach separator rest with
    | part :: parts => if c = separator then [] :: part :: parts else (c :: part) :: parts
    | [] => [[c]]

/-- What stands before the first occurrence of a separator and, if there is one, what
stands after. -/
def cutAt (separator : Char) (cs : List Char) : List Char × Option (List Char) :=
  (cs.takeWhile (· ≠ separator),
    match cs.dropWhile (· ≠ separator) with
    | _ :: rest => some rest
    | [] => none)

/-! ### Numeric addresses -/

/-- One of the four decimal parts of an address of 32 bits. -/
def isOctet (digits : List Char) : Bool :=
  !digits.isEmpty && digits.all isAsciiDigit && digits.length ≤ 3
    && (digits == ['0'] || digits.head? != some '0') && naturalOfDigits digits ≤ 255

/-- An address of 32 bits: four parts with points between them. -/
def isShortAddress (cs : List Char) : Bool :=
  let octets := splitAtEach '.' cs
  octets.length == 4 && octets.all isOctet

/-- One of the eight hexadecimal parts of an address of 128 bits. -/
def isGroup (digits : List Char) : Bool :=
  !digits.isEmpty && digits.length ≤ 4 && digits.all fun c => (hexValue? c).isSome

/-- The parts of an address of 128 bits, a short address at the end counting as two of them. -/
def groups? (cs : List Char) : Option (List (List Char)) :=
  let parts := splitAtEach ':' cs
  let final := parts.getLast?.getD []
  if parts.length < 3 then none
  else if final.contains '.' then
    if isShortAddress final then some (parts.dropLast ++ [['0'], ['0']]) else none
  else some parts

/-- The groups on both sides of the one empty part that stands for groups of zeros. An empty part at
an end is only there when the empty part next to it is that one. -/
def isShortened (before after : List (List Char)) : Bool :=
  let before := if before = [[]] then [] else before
  let after := if after = [[]] then [] else after
  before.all isGroup && after.all isGroup && before.length + after.length < 8

/-- **The notation of an address of 128 bits**: eight groups, or fewer around one empty part; a name
of a zone may follow a percent sign. -/
def isAddress (cs : List Char) : Bool :=
  let (address, zone) := cutAt '%' cs
  let zoneInOrder := zone.all fun zone => !zone.isEmpty && !zone.contains '%'
  zoneInOrder && !cs.contains '/' && match groups? address with
    | none => false
    | some parts =>
      let inner := (parts.drop 1).dropLast
      match inner.findIdx? List.isEmpty with
      | some i => parts.length ≤ 9 && isShortened (parts.take (i + 1)) (parts.drop (i + 2))
      | none => parts.length == 8 && parts.all isGroup

/-- The notation of an address of a later version: a version, a point and something more. -/
def isLaterAddress : List Char → Bool
  | 'v' :: rest =>
    match cutAt '.' rest with
    | (version, some address) =>
      !version.isEmpty && version.all (fun c => (hexValue? c).isSome) && !address.isEmpty
        && !address.contains '\n'
    | _ => false
  | _ => false

/-- What may stand between the brackets of a host. -/
def isBracketedHost (cs : List Char) : Bool :=
  if cs.head? = some 'v' then isLaterAddress cs else isAddress cs

/-! ### Hosts -/

/-- The characters whose compatibility form has a separator of a link in it: among them the
account-of and care-of signs, the double question marks, and the small and full-width separators. -/
def separatorForms : List Char :=
  ['\u2047', '\u2048', '\u2049', '\u2100', '\u2101', '\u2105', '\u2106', '\u2a74', '\ufe13',
   '\ufe16', '\ufe55', '\ufe56', '\ufe5f', '\ufe6b', '\uff03', '\uff0f', '\uff1a', '\uff1f',
   '\uff20']

/-- The text after the last occurrence of a separator, or all of it. -/
def afterLast (separator : Char) (cs : List Char) : List Char :=
  (cs.reverse.takeWhile (· ≠ separator)).reverse

/-- What the brackets of a host enclose, or the name before a port if there are none. Nothing may
stand before the brackets, and after them only a port. -/
def enclosed? (host : List Char) : Option (List Char) :=
  match cutAt '[' host with
  | (name, none) => some (cutAt ':' name).1
  | ([], some rest) =>
    let (address, after) := cutAt ']' rest
    match after.getD [] with
    | [] | ':' :: _ => some address
    | _ => none
  | _ => none

/-- Whether the brackets of a host are in order: there are none, or those after the name of a user
enclose an address. -/
def bracketsInOrder (host : List Char) : Bool :=
  match host.contains '[', host.contains ']' with
  | false, false => true
  | true, true => (enclosed? (afterLast '@' host)).any isBracketedHost
  | _, _ => false

/-- **Whether a host is in order.** -/
def isHost (host : List Char) : Bool :=
  bracketsInOrder host && !host.any separatorForms.contains

end Mockup.Link
