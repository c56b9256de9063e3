import Mockup.Text.Character
import Mockup.Text.Utf8

/-!
# Percent escapes

A link may write any byte as a percent sign with two hexadecimal digits. Neighbouring escapes are
read together as UTF-8; a percent sign without two digits stands for itself.

* `Percent.decode` — a text without its escapes;
* `Percent.decodeForm` — the same for a part of a query, where a plus sign is a blank.
-/

namespace Mockup.Text.Percent

/-- The byte that two hexadecimal digits write. -/
def byte? (high low : Char) : Option Nat := do
  return 16 * (← hexValue? high) + (← hexValue? low)

/-- The text that follows bytes already read from escapes. -/
def decodeAfter (bytes : List Nat) : List Char → List Char
  | '%' :: high :: low :: rest =>
    match byte? high low with
    | some byte => decodeAfter (bytes ++ [byte]) rest
    | none => Utf8.decode bytes ++ '%' :: decodeAfter [] (high :: low :: rest)
  | c :: rest => Utf8.decode bytes ++ c :: decodeAfter [] rest
  | [] => Utf8.decode bytes

/-- **A text without its escapes.** -/
def decode (cs : List Char) : List Char := decodeAfter [] cs

/-- **A part of a query without its escapes.** Plus signs are blanks before escapes are read, so
that an escaped plus sign stays one. -/
def decodeForm (cs : List Char) : List Char :=
  decode (cs.map fun c => if c = '+' then ' ' else c)

/-- A text without percent signs has no escapes. -/
theorem decode_eq_self {cs : List Char} (h : '%' ∉ cs) : decode cs = cs := by
  unfold decode
  induction cs with
  | nil => rfl
  | cons c rest ih =>
    have hc : c ≠ '%' := fun e => h (e ▸ List.mem_cons_self)
    have hr : '%' ∉ rest := fun e => h (List.mem_cons_of_mem _ e)
    rw [decodeAfter]
    · simp [ih hr]
    · intro _ _ _ e
      exact absurd e hc

end Mockup.Text.Percent
