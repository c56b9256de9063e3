import Mathlib.Data.List.Basic
import Mockup.Text.Percent

/-!
# Escaped text, read back

A text is put into one part of a link by writing the bytes of most of its characters as escapes. The
reader takes neighbouring escapes together, decodes their bytes and replaces what is no character.
This module says that none of that shows: what was escaped is read back as it was, whatever comes
after it.

* `Utf8.bytesOf` — the bytes of a character, by the library's encoding;
* `Utf8.decode_bytesOf_append` — **the bytes of a character are decoded to the character**;
* `Percent.encode` — a text in which only letters, digits and four marks stay as they are;
* `Percent.decode_encode_append` — **what was escaped is read back**;
* `Percent.Reads` — what a written text is read as, whatever comes after it;
* `Percent.decode_eq_self_iff` — **a text is read as it is exactly when it has no escape.**

The reader collects bytes and decodes them only when the escapes end. So the statement about it is
one about any bytes that are still to be decoded: those of whole characters can be decoded first
(`Percent.decodeAfter_bytesOf_append`).
-/

namespace Mockup.Text

/-! ### Bytes of characters -/

namespace Utf8

/-- **The bytes of a character.** -/
def bytesOf (c : Char) : List Nat := (String.utf8EncodeChar c).map UInt8.toNat

/-- A byte that completes a character. -/
theorem decodeFrom_last {value least greatest byte : Nat} (h : least ≤ byte ∧ byte ≤ greatest)
    (rest : List Nat) :
    decodeFrom (some ⟨value, 1, least, greatest⟩) (byte :: rest)
      = .ofNat (value * 0x40 + (byte - 0x80)) :: decode rest := by
  rw [decodeFrom, if_pos h, if_pos rfl, decode]

/-- A byte that continues a character of which more is missing. -/
theorem decodeFrom_next {value missing least greatest byte : Nat}
    (h : least ≤ byte ∧ byte ≤ greatest) (rest : List Nat) :
    decodeFrom (some ⟨value, missing + 2, least, greatest⟩) (byte :: rest)
      = decodeFrom (some ⟨value * 0x40 + (byte - 0x80), missing + 1, 0x80, 0xbf⟩) rest := by
  rw [decodeFrom, if_pos h, if_neg (by simp)]
  rfl

/-- A byte that begins a longer character. -/
theorem decode_cons_of_start {byte : Nat} {pending : Pending} (h : start byte = .inr pending)
    (rest : List Nat) : decode (byte :: rest) = decodeFrom (some pending) rest := by
  rw [decode, decodeFrom, h]

/-- The code point of a character is none of the halves of pairs, and not too large. -/
theorem toNat_bounds (c : Char) : c.toNat < 0x110000 ∧ ¬ (0xd800 ≤ c.toNat ∧ c.toNat < 0xe000) := by
  have hvalid : c.toNat < 0xd800 ∨ 0xdfff < c.toNat ∧ c.toNat < 0x110000 := c.valid
  omega

/-- The bytes of a character, by its size. -/
theorem bytesOf_eq (c : Char) :
    bytesOf c =
      if c.toNat ≤ 0x7f then [c.toNat]
      else if c.toNat ≤ 0x7ff then [c.toNat / 0x40 + 0xc0, c.toNat % 0x40 + 0x80]
      else if c.toNat ≤ 0xffff then
        [c.toNat / 0x1000 + 0xe0, c.toNat / 0x40 % 0x40 + 0x80, c.toNat % 0x40 + 0x80]
      else
        [c.toNat / 0x40000 + 0xf0, c.toNat / 0x1000 % 0x40 + 0x80, c.toNat / 0x40 % 0x40 + 0x80,
          c.toNat % 0x40 + 0x80] := by
  obtain ⟨hlast, -⟩ := toNat_bounds c
  have hval : c.val.toNat = c.toNat := rfl
  rw [bytesOf, String.utf8EncodeChar, hval]
  -- one, two, three or four bytes, by the size of the code point
  split
  · simp; omega
  · split
    · simp; omega
    · split
      · simp; omega
      · simp; omega

/-- What the first of two bytes begins. -/
theorem start_of_two {n : Nat} (least : 0x7f < n) (greatest : n ≤ 0x7ff) :
    start (n / 0x40 + 0xc0) = .inr ⟨n / 0x40, 1, 0x80, 0xbf⟩ := by
  rw [start, if_neg (by omega), if_neg (by omega), if_pos (by omega), Nat.add_sub_cancel]

/-- What the first of three bytes begins. The range of the second byte leaves room for it, since the
three bytes write no shorter character and no half of a pair. -/
theorem start_of_three {n : Nat} (least : 0x7ff < n) (greatest : n ≤ 0xffff)
    (notHalf : ¬ (0xd800 ≤ n ∧ n < 0xe000)) :
    ∃ low high, start (n / 0x1000 + 0xe0) = .inr ⟨n / 0x1000, 2, low, high⟩
      ∧ low ≤ n / 0x40 % 0x40 + 0x80 ∧ n / 0x40 % 0x40 + 0x80 ≤ high := by
  -- of the kinds of first bytes only that of three is left
  rw [start, if_neg (by omega), if_neg (by omega), if_neg (by omega)]
  -- the least and the last second byte depend on the first one
  by_cases first : n / 0x1000 = 0
  · rw [first, if_pos rfl]
    exact ⟨_, _, rfl, by omega, by omega⟩
  · rw [if_neg (by omega)]
    by_cases halves : n / 0x1000 = 0xd
    · rw [halves, if_pos rfl]
      exact ⟨_, _, rfl, by omega, by omega⟩
    · rw [if_neg (by omega), if_pos (by omega), Nat.add_sub_cancel]
      exact ⟨_, _, rfl, by omega, by omega⟩

/-- What the first of four bytes begins. -/
theorem start_of_four {n : Nat} (least : 0xffff < n) (greatest : n < 0x110000) :
    ∃ low high, start (n / 0x40000 + 0xf0) = .inr ⟨n / 0x40000, 3, low, high⟩
      ∧ low ≤ n / 0x1000 % 0x40 + 0x80 ∧ n / 0x1000 % 0x40 + 0x80 ≤ high := by
  -- of the kinds of first bytes only that of four is left
  rw [start, if_neg (by omega), if_neg (by omega), if_neg (by omega), if_neg (by omega),
    if_neg (by omega), if_neg (by omega)]
  -- again the first one decides which second bytes may follow
  by_cases first : n / 0x40000 = 0
  · rw [first, if_pos rfl]
    exact ⟨_, _, rfl, by omega, by omega⟩
  · rw [if_neg (by omega)]
    -- the last kind ends where the code points end
    by_cases last : n / 0x40000 = 4
    · rw [last, if_neg (by omega), if_pos rfl]
      exact ⟨_, _, rfl, by omega, by omega⟩
    · rw [if_pos (by omega), Nat.add_sub_cancel]
      exact ⟨_, _, rfl, by omega, by omega⟩

/-- **The bytes of a character are decoded to the character.** -/
theorem decode_bytesOf_append (c : Char) (rest : List Nat) :
    decode (bytesOf c ++ rest) = c :: decode rest := by
  obtain ⟨hlast, hhalf⟩ := toNat_bounds c
  -- whatever the bits are, a byte that is not the first is within its range
  have htail (n : Nat) : 0x80 ≤ n % 0x40 + 0x80 ∧ n % 0x40 + 0x80 ≤ 0xbf := by omega
  rw [bytesOf_eq]
  -- the bits of the bytes, put together again
  by_cases one : c.toNat ≤ 0x7f
  · rw [if_pos one, List.singleton_append, decode_cons_ascii (by omega), Char.ofNat_toNat]
  rw [if_neg one]
  by_cases two : c.toNat ≤ 0x7ff
  · rw [if_pos two]
    have hbits : c.toNat / 0x40 * 0x40 + (c.toNat % 0x40 + 0x80 - 0x80) = c.toNat := by omega
    rw [List.cons_append, decode_cons_of_start (start_of_two (by omega) two), List.cons_append,
      decodeFrom_last (htail _), hbits, Char.ofNat_toNat, List.nil_append]
  rw [if_neg two]
  by_cases three : c.toNat ≤ 0xffff
  · rw [if_pos three]
    obtain ⟨low, high, hstart, hsecond⟩ := start_of_three (by omega) three hhalf
    have hbits : (c.toNat / 0x1000 * 0x40 + (c.toNat / 0x40 % 0x40 + 0x80 - 0x80)) * 0x40
        + (c.toNat % 0x40 + 0x80 - 0x80) = c.toNat := by omega
    rw [List.cons_append, decode_cons_of_start hstart, List.cons_append, decodeFrom_next hsecond,
      List.cons_append, decodeFrom_last (htail _), hbits, Char.ofNat_toNat, List.nil_append]
  · rw [if_neg three]
    -- four bytes, of which only the second one is further restricted
    obtain ⟨low, high, hstart, hsecond⟩ := start_of_four (by omega) hlast
    have hbits : ((c.toNat / 0x40000 * 0x40 + (c.toNat / 0x1000 % 0x40 + 0x80 - 0x80)) * 0x40
        + (c.toNat / 0x40 % 0x40 + 0x80 - 0x80)) * 0x40 + (c.toNat % 0x40 + 0x80 - 0x80)
        = c.toNat := by omega
    rw [List.cons_append, decode_cons_of_start hstart, List.cons_append, decodeFrom_next hsecond,
      List.cons_append, decodeFrom_next (htail _), List.cons_append, decodeFrom_last (htail _), hbits,
      Char.ofNat_toNat, List.nil_append]

/-- A character that is begun leaves something, be it the replacement. -/
theorem decodeFrom_pending_ne_nil (pending : Pending) (bytes : List Nat) :
    decodeFrom (some pending) bytes ≠ [] := by
  induction bytes generalizing pending with
  | nil => exact List.cons_ne_nil _ _
  | cons byte rest ih =>
    rw [decodeFrom]
    split
    · dsimp only
      split
      · exact List.cons_ne_nil _ _
      · exact ih _
    · exact List.cons_ne_nil _ _

/-- Bytes leave something. -/
theorem decode_ne_nil {bytes : List Nat} (h : bytes ≠ []) : decode bytes ≠ [] := by
  cases bytes with
  | nil => exact absurd rfl h
  | cons byte rest =>
    rw [decode, decodeFrom]
    split
    · exact List.cons_ne_nil _ _
    · exact decodeFrom_pending_ne_nil _ rest

/-- Bytes leave no more characters than there are bytes, and one more when a character is begun. -/
theorem length_decodeFrom_le (bytes : List Nat) :
    (decodeFrom none bytes).length ≤ bytes.length
    ∧ ∀ pending, (decodeFrom (some pending) bytes).length ≤ bytes.length + 1 := by
  induction bytes with
  | nil => exact ⟨Nat.le_refl _, fun _ => Nat.le_refl _⟩
  | cons byte rest ih =>
    obtain ⟨hnone, hsome⟩ := ih
    constructor
    -- without a pending character, the next byte is one or begins one
    · rw [decodeFrom]
      split
      · exact Nat.succ_le_succ hnone
      · exact hsome _
    -- with one, the next byte continues it, ends it or cuts it off
    · intro pending
      rw [decodeFrom]
      split
      · dsimp only
        split
        · exact Nat.le_succ_of_le (Nat.succ_le_succ hnone)
        · exact Nat.le_succ_of_le (hsome _)
      -- cut off, it counts as a character of its own
      · refine Nat.succ_le_succ ?_
        split
        · exact Nat.succ_le_succ hnone
        · exact hsome _

/-- The bytes of a character are bytes. -/
theorem lt_of_mem_bytesOf {c : Char} {byte : Nat} (h : byte ∈ bytesOf c) : byte < 0x100 := by
  obtain ⟨b, -, rfl⟩ := List.mem_map.mp h
  exact b.toNat_lt

end Utf8

/-! ### Escapes -/

namespace Percent

/-- Whether a character stays as it is in an escaped text. -/
def isUnreserved (c : Char) : Bool := c.isAlphanum || c == '-' || c == '.' || c == '_' || c == '~'

/-- The hexadecimal digit of a value, as a capital. -/
def hexDigit (value : Nat) : Char := "0123456789ABCDEF".toList.getD value '0'

/-- The escape of a byte. -/
def escape (byte : Nat) : List Char := ['%', hexDigit (byte / 16), hexDigit (byte % 16)]

/-- An escaped character. -/
def encodeChar (c : Char) : List Char :=
  if isUnreserved c then [c] else (Utf8.bytesOf c).flatMap escape

/-- **An escaped text**, in which only letters, digits and four marks stay as they are. -/
def encode (cs : List Char) : List Char := cs.flatMap encodeChar

/-! ### Reading escapes -/

theorem hexValue?_hexDigit {value : Nat} (h : value < 16) :
    hexValue? (hexDigit value) = some value := by
  have hall : ∀ value < 16, hexValue? (hexDigit value) = some value := by decide
  exact hall value h

/-- The escape of a byte is read as the byte, which is to be decoded after those before it. -/
theorem decodeAfter_escape (bytes : List Nat) {byte : Nat} (h : byte < 0x100) (rest : List Char) :
    decodeAfter bytes (escape byte ++ rest) = decodeAfter (bytes ++ [byte]) rest := by
  have hbyte : byte? (hexDigit (byte / 16)) (hexDigit (byte % 16)) = some byte := by
    rw [byte?, hexValue?_hexDigit (by omega), hexValue?_hexDigit (by omega)]
    exact congrArg some (Nat.div_add_mod byte 16)
  change decodeAfter bytes ('%' :: hexDigit (byte / 16) :: hexDigit (byte % 16) :: rest) = _
  rw [decodeAfter, hbyte]

theorem decodeAfter_flatMap_escape {bytes : List Nat} (h : ∀ byte ∈ bytes, byte < 0x100)
    (before : List Nat) (rest : List Char) :
    decodeAfter before (bytes.flatMap escape ++ rest) = decodeAfter (before ++ bytes) rest := by
  induction bytes generalizing before with
  | nil => rw [List.flatMap_nil, List.nil_append, List.append_nil]
  | cons byte others ih =>
    obtain ⟨hbyte, hothers⟩ := List.forall_mem_cons.mp h
    rw [List.flatMap_cons, List.append_assoc, decodeAfter_escape before hbyte, ih hothers,
      List.append_assoc, List.singleton_append]

/-- **Bytes of whole characters can be decoded first**, before it is known which bytes follow. -/
theorem decodeAfter_bytesOf_append (c : Char) (bytes : List Nat) (rest : List Char) :
    decodeAfter (Utf8.bytesOf c ++ bytes) rest = c :: decodeAfter bytes rest := by
  -- along the reading, which collects bytes until the escapes end
  induction bytes, rest using decodeAfter.induct with
  | case1 bytes high low rest byte hbyte ih =>
    rw [decodeAfter, hbyte, decodeAfter, hbyte]
    dsimp only
    rw [List.append_assoc, ih]
  | case2 bytes high low rest hbyte ih =>
    rw [decodeAfter, hbyte, decodeAfter, hbyte]
    dsimp only
    rw [Utf8.decode_bytesOf_append, List.cons_append]
  | case3 bytes d rest hescape ih =>
    rw [decodeAfter.eq_2 _ _ _ hescape, decodeAfter.eq_2 _ _ _ hescape, Utf8.decode_bytesOf_append,
      List.cons_append]
  | case4 bytes => rw [decodeAfter, decodeAfter, Utf8.decode_bytesOf_append]

theorem decode_cons_of_ne {c : Char} (h : c ≠ '%') (rest : List Char) :
    decode (c :: rest) = c :: decode rest := by
  rw [decode, decodeAfter.eq_2 _ _ _ fun _ _ _ hcons => absurd hcons h]
  rfl

/-- What has no percent sign is read as it is, whatever comes after it. -/
theorem decode_append_of_notMem {plain : List Char} (h : '%' ∉ plain) (rest : List Char) :
    decode (plain ++ rest) = plain ++ decode rest := by
  induction plain with
  | nil => rfl
  | cons c cs ih =>
    have hc : c ≠ '%' := fun e => h (e ▸ List.mem_cons_self)
    rw [List.cons_append, decode_cons_of_ne hc, ih fun hmem => h (List.mem_cons_of_mem _ hmem),
      List.cons_append]

/-- A character that no escape needs stays where it is, whatever is around it. -/
theorem mem_decode_of_mem {c : Char} (percent : c ≠ '%') (digit : hexValue? c = none)
    {cs : List Char} (h : c ∈ cs) : c ∈ decode cs := by
  -- along the reading, whatever bytes are still to be decoded
  have hany (bytes : List Nat) : c ∈ decodeAfter bytes cs := by
    induction bytes, cs using decodeAfter.induct with
    | case1 bytes high low rest byte hbyte ih =>
      rw [decodeAfter, hbyte]
      refine ih ?_
      obtain ⟨highValue, hhigh, hbyte⟩ := Option.bind_eq_some_iff.mp hbyte
      -- the percent sign and the two digits are none of it
      obtain ⟨lowValue, hlow, -⟩ := Option.bind_eq_some_iff.mp hbyte
      rcases List.mem_cons.mp h with rfl | h
      · exact absurd rfl percent
      rcases List.mem_cons.mp h with rfl | h
      · cases digit.symm.trans hhigh
      rcases List.mem_cons.mp h with rfl | h
      · cases digit.symm.trans hlow
      · exact h
    -- a percent sign without digits stays
    | case2 bytes high low rest hbyte ih =>
      rw [decodeAfter, hbyte]
      refine List.mem_append_right _ (List.mem_cons_of_mem _ (ih ?_))
      exact (List.mem_cons.mp h).resolve_left percent
    -- any other character stays
    | case3 bytes d rest hescape ih =>
      rw [decodeAfter.eq_2 _ _ _ hescape]
      refine List.mem_append_right _ ?_
      rcases List.mem_cons.mp h with rfl | h
      · exact List.mem_cons_self
      · exact List.mem_cons_of_mem _ (ih h)
    | case4 bytes => cases h
  exact hany []

/-- The same for a part of a query, unless the character is a plus sign. -/
theorem mem_decodeForm_of_mem {c : Char} (percent : c ≠ '%') (digit : hexValue? c = none)
    (plus : c ≠ '+') {cs : List Char} (h : c ∈ cs) : c ∈ decodeForm cs :=
  mem_decode_of_mem percent digit (List.mem_map.mpr ⟨c, h, if_neg plus⟩)

/-- **Escapes leave something**: neither bytes to be decoded nor characters to come vanish. -/
theorem decodeAfter_ne_nil {bytes : List Nat} {cs : List Char} (h : bytes ≠ [] ∨ cs ≠ []) :
    decodeAfter bytes cs ≠ [] := by
  -- along the reading: what has been collected is never lost
  induction bytes, cs using decodeAfter.induct with
  | case1 bytes high low rest byte hbyte ih =>
    rw [decodeAfter, hbyte]
    exact ih (.inl (List.append_ne_nil_of_right_ne_nil bytes (List.cons_ne_nil byte [])))
  | case2 bytes high low rest hbyte ih =>
    rw [decodeAfter, hbyte]
    exact List.append_ne_nil_of_right_ne_nil _ (List.cons_ne_nil _ _)
  | case3 bytes c rest hescape ih =>
    rw [decodeAfter.eq_2 _ _ _ hescape]
    exact List.append_ne_nil_of_right_ne_nil _ (List.cons_ne_nil _ _)
  | case4 bytes =>
    rw [decodeAfter]
    -- at the end only the collected bytes are left
    exact Utf8.decode_ne_nil (h.resolve_right (· rfl))

/-- A part of a query that is not empty is not empty without its escapes either. -/
theorem decodeForm_ne_nil {cs : List Char} (h : cs ≠ []) : decodeForm cs ≠ [] :=
  decodeAfter_ne_nil (.inr fun hmap => h (List.map_eq_nil_iff.mp hmap))

/-- A part of a query without escapes and plus signs is read as it is. -/
theorem decodeForm_eq_self {cs : List Char} (percent : '%' ∉ cs) (plus : '+' ∉ cs) :
    decodeForm cs = cs := by
  have hmap : cs.map (fun c => if c = '+' then ' ' else c) = cs := by
    refine (List.map_congr_left fun c hc => ?_).trans (List.map_id cs)
    have hplus : c ≠ '+' := by
      rintro rfl
      exact plus hc
    exact if_neg hplus
  rw [decodeForm, hmap, decode_eq_self percent]

/-- **What was escaped is read back**, whatever comes after it. -/
theorem decode_encode_append (cs rest : List Char) :
    decode (encode cs ++ rest) = cs ++ decode rest := by
  induction cs with
  | nil => rfl
  | cons c cs ih =>
    rw [encode, List.flatMap_cons, List.append_assoc, encodeChar]
    cases unreserved : isUnreserved c with
    -- a character that needs no escape is read as it is
    | true =>
      have hc : c ≠ '%' := by
        rintro rfl
        exact absurd unreserved (by decide)
      rw [if_pos rfl, List.singleton_append, decode_cons_of_ne hc, List.cons_append]
      exact congrArg _ ih
    | false =>
      -- the bytes of the character are read, and then decoded before the rest is
      rw [if_neg (by decide), decode,
        decodeAfter_flatMap_escape fun byte hbyte => Utf8.lt_of_mem_bytesOf hbyte, List.nil_append]
      have hchar := decodeAfter_bytesOf_append c [] (cs.flatMap encodeChar ++ rest)
      rw [List.append_nil] at hchar
      rw [hchar, List.cons_append]
      exact congrArg _ ih

/-! ### Reading piece by piece -/

/-- **What a written text is read as**, whatever comes after it. -/
def Reads (written cs : List Char) : Prop := ∀ rest, decode (written ++ rest) = cs ++ decode rest

namespace Reads

variable {written cs : List Char}

theorem nil : Reads [] [] := fun _ => rfl

theorem append {written' cs' : List Char} (h : Reads written cs) (h' : Reads written' cs') :
    Reads (written ++ written') (cs ++ cs') := fun rest => by
  rw [List.append_assoc, h, h', List.append_assoc]

/-- What has no percent sign is read as it is. -/
theorem of_notMem (h : '%' ∉ cs) : Reads cs cs := decode_append_of_notMem h

theorem cons {c : Char} (hc : c ≠ '%') (h : Reads written cs) : Reads (c :: written) (c :: cs) :=
  fun rest => by rw [List.cons_append, decode_cons_of_ne hc, h, List.cons_append]

/-- The whole of a text is read as what it is read as before others. -/
theorem decode (h : Reads written cs) : Percent.decode written = cs := by
  have hend := h []
  rwa [List.append_nil, decode_eq_self List.not_mem_nil, List.append_nil] at hend

end Reads

/-! ### Texts without escapes -/

/-- **Whether an escape stands in a text**: a percent sign and two hexadecimal digits. -/
def HasEscape (cs : List Char) : Prop :=
  ∃ high low, ['%', high, low] <:+: cs ∧ (byte? high low).isSome

/-- An escape stands at the beginning of a text or further on. -/
theorem hasEscape_cons_iff {c : Char} {rest : List Char} :
    HasEscape (c :: rest) ↔
      (∃ high low, ['%', high, low] <+: c :: rest ∧ (byte? high low).isSome) ∨ HasEscape rest := by
  simp only [HasEscape, List.infix_cons_iff, or_and_right, exists_or]

theorem not_hasEscape_nil : ¬ HasEscape [] := by
  rintro ⟨high, low, hinfix, -⟩
  cases List.infix_nil.mp hinfix

variable {bytes : List Nat} {cs : List Char}

/-- What has no escape is left as it is, after the bytes that are still to be decoded. -/
theorem decodeAfter_of_not_hasEscape (h : ¬ HasEscape cs) :
    decodeAfter bytes cs = Utf8.decode bytes ++ cs := by
  induction bytes, cs using decodeAfter.induct with
  -- an escape at the front is one in the text
  | case1 bytes high low rest byte hbyte ih =>
    refine absurd (hasEscape_cons_iff.mpr (.inl ⟨high, low, ⟨rest, rfl⟩, ?_⟩)) h
    rw [hbyte, Option.isSome_some]
  | case2 bytes high low rest hbyte ih =>
    rw [decodeAfter, hbyte]
    dsimp only
    rw [ih fun hrest => h (hasEscape_cons_iff.mpr (.inr hrest))]
    rfl
  | case3 bytes c rest hescape ih =>
    rw [decodeAfter.eq_2 _ _ _ hescape, ih fun hrest => h (hasEscape_cons_iff.mpr (.inr hrest))]
    rfl
  | case4 bytes => rw [decodeAfter, List.append_nil]

/-- Reading makes no text longer. -/
theorem length_decodeAfter_le (bytes : List Nat) (cs : List Char) :
    (decodeAfter bytes cs).length ≤ bytes.length + cs.length := by
  -- along the reading, with the collected bytes in the count
  induction bytes, cs using decodeAfter.induct with
  | case1 bytes high low rest byte hbyte ih =>
    rw [decodeAfter, hbyte]
    simp only [List.length_append, List.length_cons, List.length_nil] at ih ⊢
    omega
  | case2 bytes high low rest hbyte ih =>
    have hbytes := (Utf8.length_decodeFrom_le bytes).1
    rw [decodeAfter, hbyte]
    simp only [List.length_append, List.length_cons, List.length_nil, Utf8.decode] at ih ⊢
    omega
  | case3 bytes c rest hescape ih =>
    have hbytes := (Utf8.length_decodeFrom_le bytes).1
    rw [decodeAfter.eq_2 _ _ _ hescape]
    simp only [List.length_append, List.length_cons, List.length_nil, Utf8.decode] at ih ⊢
    omega
  | case4 bytes => exact (Utf8.length_decodeFrom_le bytes).1

/-- An escape is three characters and leaves at most one. -/
theorem length_decodeAfter_lt (bytes : List Nat) (h : HasEscape cs) :
    (decodeAfter bytes cs).length < bytes.length + cs.length := by
  induction bytes, cs using decodeAfter.induct with
  -- three characters become one byte
  | case1 bytes high low rest byte hbyte ih =>
    have hrest := length_decodeAfter_le (bytes ++ [byte]) rest
    rw [decodeAfter, hbyte]
    simp only [List.length_append, List.length_cons, List.length_nil] at hrest ⊢
    omega
  | case2 bytes high low rest hbyte ih =>
    have hbytes := (Utf8.length_decodeFrom_le bytes).1
    have hrest : HasEscape (high :: low :: rest) := by
      refine (hasEscape_cons_iff.mp h).resolve_left ?_
      rintro ⟨high', low', hprefix, hsome⟩
      -- the two characters after the percent sign are no digits
      simp only [List.cons_prefix_cons, List.nil_prefix, and_true, true_and] at hprefix
      obtain ⟨rfl, rfl⟩ := hprefix
      rw [hbyte] at hsome
      cases hsome
    have hlt := ih hrest
    rw [decodeAfter, hbyte]
    simp only [List.length_append, List.length_cons, List.length_nil, Utf8.decode] at hlt ⊢
    omega
  | case3 bytes c rest hescape ih =>
    -- the escape is not at this character, so it comes later
    have hbytes := (Utf8.length_decodeFrom_le bytes).1
    have hrest : HasEscape rest := by
      refine (hasEscape_cons_iff.mp h).resolve_left ?_
      rintro ⟨high, low, ⟨tail, htail⟩, -⟩
      obtain ⟨rfl, rfl⟩ := List.cons_eq_cons.mp htail
      exact hescape high low tail rfl rfl
    have hlt := ih hrest
    rw [decodeAfter.eq_2 _ _ _ hescape]
    simp only [List.length_append, List.length_cons, List.length_nil, Utf8.decode] at hlt ⊢
    omega
  | case4 bytes => exact absurd h not_hasEscape_nil

/-- **A text is read as it is exactly when it has no escape.** -/
theorem decode_eq_self_iff : decode cs = cs ↔ ¬ HasEscape cs := by
  refine ⟨fun hself escape => ?_, fun h => decodeAfter_of_not_hasEscape h⟩
  have hlt := length_decodeAfter_lt [] escape
  rw [← decode, hself, List.length_nil, Nat.zero_add] at hlt
  exact absurd hlt (Nat.lt_irrefl _)

end Percent

end Mockup.Text
