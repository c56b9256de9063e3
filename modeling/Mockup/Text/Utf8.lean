/-!
# Decoding UTF-8 with replacements

Bytes as text where a fault in the bytes must not stop the reading: a byte that cannot start a
character, or the beginning of a character that is broken off, becomes one replacement character.

* `Utf8.Pending` — a character that is begun;
* `Utf8.start` — what one byte begins;
* `Utf8.decodeFrom`, `Utf8.decode` — the text of bytes.
-/

namespace Mockup.Text.Utf8

/-- **A character that is begun**: its bits so far, the number of bytes that are missing, and the
range of the next one. -/
structure Pending where
  value : Nat
  missing : Nat
  least : Nat
  greatest : Nat

/-- The character that stands for a fault. -/
def replacement : Char := '\ufffd'

/-- **What a byte begins**: a character of its own, a longer one, or nothing valid. The range of the
second byte keeps out overlong forms, halves of pairs and what lies beyond the last character. -/
def start (byte : Nat) : Char ⊕ Pending :=
  if byte < 0x80 then .inl (.ofNat byte)
  else if byte < 0xc2 then .inl replacement
  else if byte < 0xe0 then .inr ⟨byte - 0xc0, 1, 0x80, 0xbf⟩
  else if byte = 0xe0 then .inr ⟨0, 2, 0xa0, 0xbf⟩
  else if byte = 0xed then .inr ⟨0xd, 2, 0x80, 0x9f⟩
  else if byte < 0xf0 then .inr ⟨byte - 0xe0, 2, 0x80, 0xbf⟩
  else if byte = 0xf0 then .inr ⟨0, 3, 0x90, 0xbf⟩
  else if byte < 0xf4 then .inr ⟨byte - 0xf0, 3, 0x80, 0xbf⟩
  else if byte = 0xf4 then .inr ⟨4, 3, 0x80, 0x8f⟩
  else .inl replacement

/-- The text of the bytes after a character that may be begun. -/
def decodeFrom : Option Pending → List Nat → List Char
  | none, [] => []
  | some _, [] => [replacement]
  | none, byte :: rest =>
    match start byte with
    | .inl c => c :: decodeFrom none rest
    | .inr pending => decodeFrom (some pending) rest
  | some pending, byte :: rest =>
    if pending.least ≤ byte ∧ byte ≤ pending.greatest then
      let value := pending.value * 0x40 + (byte - 0x80)
      if pending.missing = 1 then .ofNat value :: decodeFrom none rest
      else decodeFrom (some ⟨value, pending.missing - 1, 0x80, 0xbf⟩) rest
    else
      -- the byte does not continue the character, so it begins anew
      replacement :: match start byte with
        | .inl c => c :: decodeFrom none rest
        | .inr pending => decodeFrom (some pending) rest

/-- **The text of bytes.** -/
def decode (bytes : List Nat) : List Char := decodeFrom none bytes

@[simp] theorem decode_nil : decode [] = [] := rfl

/-- A byte of ASCII is its own character. -/
theorem decode_cons_ascii {byte : Nat} (h : byte < 0x80) (rest : List Nat) :
    decode (byte :: rest) = .ofNat byte :: decode rest := by
  simp [decode, decodeFrom, start, h]

end Mockup.Text.Utf8
