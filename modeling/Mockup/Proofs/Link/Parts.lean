import Mathlib.Data.List.TakeWhile
import Mockup.Link.Target
import Mockup.Proofs.Text.Percent
import Mockup.Proofs.Text.Trim

/-!
# The parts of a link

A link is taken apart by cutting at the first occurrence of one separator and by splitting at every
occurrence of another. This module says what that gives on a text that is put together from parts,
and so what the parts of a link to a file are when its text is known.

* `cutAt_of_notMem`, `cutAt_append_cons` — cutting;
* `splitAtEach_of_notMem`, `splitAtEach_append_cons` — splitting;
* `exists_splitAtEach_append` — **what is appended to a text reaches its last part only**;
* `hostOf`, `parse_of_isHost`, `parse_of_not_isHost` — **a link is read exactly when its host is in
  order**, and `parse_eq` what its target is then;
* `parse_of_origin`, `fileKey?_of_announced` — the same for links to the remote side.
-/

namespace Mockup.Link

open Text

/-! ### Cutting -/

section Cutting

variable {separator : Char} {before : List Char}

/-- There is nothing to cut in a text without the separator. -/
theorem cutAt_of_notMem (h : separator ∉ before) : cutAt separator before = (before, none) := by
  have hall : ∀ c ∈ before, decide (c ≠ separator) = true :=
    fun c hc => decide_eq_true fun e => h (e ▸ hc)
  rw [cutAt, List.takeWhile_eq_self_iff.mpr hall, List.dropWhile_eq_nil_iff.mpr hall]

/-- A text is cut at the first occurrence of the separator. -/
theorem cutAt_append_cons (h : separator ∉ before) (after : List Char) :
    cutAt separator (before ++ separator :: after) = (before, some after) := by
  have hall : ∀ c ∈ before, decide (c ≠ separator) = true :=
    fun c hc => decide_eq_true fun e => h (e ▸ hc)
  rw [cutAt, List.takeWhile_append_of_pos hall, List.takeWhile_cons_of_neg (by simp),
    List.dropWhile_append_of_pos hall, List.dropWhile_cons_of_neg (by simp), List.append_nil]

end Cutting

/-! ### Splitting -/

section Splitting

variable {separator : Char}

/-- There is always a first part. -/
theorem exists_splitAtEach_eq_cons (separator : Char) (cs : List Char) :
    ∃ part parts, splitAtEach separator cs = part :: parts := by
  cases cs with
  | nil => exact ⟨_, _, rfl⟩
  | cons c rest =>
    rw [splitAtEach]
    split
    · split
      · exact ⟨_, _, rfl⟩
      · exact ⟨_, _, rfl⟩
    · exact ⟨_, _, rfl⟩

/-- A separator ends a part. -/
theorem splitAtEach_cons_self (rest : List Char) :
    splitAtEach separator (separator :: rest) = [] :: splitAtEach separator rest := by
  obtain ⟨part, parts, hparts⟩ := exists_splitAtEach_eq_cons separator rest
  rw [splitAtEach, hparts]
  exact if_pos rfl

/-- Any other character belongs to the first part. -/
theorem splitAtEach_cons_of_ne {c : Char} (h : c ≠ separator) {rest part : List Char}
    {parts : List (List Char)} (hrest : splitAtEach separator rest = part :: parts) :
    splitAtEach separator (c :: rest) = (c :: part) :: parts := by
  rw [splitAtEach, hrest]
  exact if_neg h

/-- A text without the separator is one part. -/
theorem splitAtEach_of_notMem {cs : List Char} (h : separator ∉ cs) :
    splitAtEach separator cs = [cs] := by
  induction cs with
  | nil => rfl
  | cons c rest ih =>
    have hc : c ≠ separator := fun e => h (e ▸ List.mem_cons_self)
    exact splitAtEach_cons_of_ne hc (ih fun hmem => h (List.mem_cons_of_mem _ hmem))

/-- The parts on both sides of a separator. -/
theorem splitAtEach_append_cons (before after : List Char) :
    splitAtEach separator (before ++ separator :: after)
      = splitAtEach separator before ++ splitAtEach separator after := by
  -- what stands before the separator may have others, which end parts of its own
  induction before with
  | nil => exact splitAtEach_cons_self after
  | cons c rest ih =>
    -- one more part ends here
    by_cases hc : c = separator
    · subst hc
      rw [List.cons_append, splitAtEach_cons_self, splitAtEach_cons_self, ih, List.cons_append]
    -- the character goes to the first part
    · obtain ⟨part, parts, hparts⟩ := exists_splitAtEach_eq_cons separator rest
      rw [hparts, List.cons_append] at ih
      rw [List.cons_append, splitAtEach_cons_of_ne hc ih, splitAtEach_cons_of_ne hc hparts,
        List.cons_append]

/-- A text with a separator has a last one. -/
theorem exists_last_separator {cs : List Char} (h : separator ∈ cs) :
    ∃ before after, cs = before ++ separator :: after ∧ separator ∉ after := by
  obtain ⟨after, before, hcs, hafter⟩ := List.eq_append_cons_of_mem (List.mem_reverse.mpr h)
  refine ⟨before.reverse, after.reverse, ?_, fun hmem => hafter (List.mem_reverse.mp hmem)⟩
  have hreverse := congrArg List.reverse hcs
  rwa [List.reverse_reverse, List.reverse_append, List.reverse_cons, List.append_assoc,
    List.singleton_append] at hreverse

/-- **What is appended to a text reaches its last part only**: the other parts stay. -/
theorem exists_splitAtEach_append (separator : Char) (cs : List Char) :
    ∃ front last, ∀ rest, separator ∉ rest →
      splitAtEach separator (cs ++ rest) = front ++ [last ++ rest] := by
  -- the last part is what follows the last separator, or all of a text without one
  by_cases hmem : separator ∈ cs
  -- the rest is appended to the part after the last separator
  · obtain ⟨before, after, rfl, hafter⟩ := exists_last_separator hmem
    refine ⟨splitAtEach separator before, after, fun rest hrest => ?_⟩
    have hlast : separator ∉ after ++ rest := fun h => (List.mem_append.mp h).elim hafter hrest
    rw [List.append_assoc, List.cons_append, splitAtEach_append_cons, splitAtEach_of_notMem hlast]
  -- there is one part only
  · refine ⟨[], cs, fun rest hrest => ?_⟩
    have hlast : separator ∉ cs ++ rest := fun h => (List.mem_append.mp h).elim hmem hrest
    rw [splitAtEach_of_notMem hlast, List.nil_append]

end Splitting

/-! ### Ends -/

/-- The last character of a text is that of its end. -/
theorem mem_of_mem_getLast?_append {front back : List Char} (h : back ≠ []) {c : Char}
    (hc : c ∈ (front ++ back).getLast?) : c ∈ back := by
  rw [List.getLast?_append, List.getLast?_eq_some_getLast h] at hc
  obtain rfl := Option.some.inj hc
  exact List.getLast_mem h

/-! ### Hosts -/

/-- **The host of a link**; a key alone has none. -/
def hostOf (link : String) : List Char :=
  if isBareKey (unescaped link) then [] else (hostAndRest (unescaped link)).1

/-- A host without brackets and without characters that turn into separators is in order. -/
theorem isHost_of_plain {host : List Char} (opening : '[' ∉ host) (closing : ']' ∉ host)
    (forms : ∀ c ∈ host, c ∉ separatorForms) : isHost host = true := by
  have hopening : host.contains '[' = false := eq_false_of_ne_true fun h =>
    opening (List.contains_iff_mem.mp h)
  have hclosing : host.contains ']' = false := eq_false_of_ne_true fun h =>
    closing (List.contains_iff_mem.mp h)
  have hforms : host.any separatorForms.contains = false := by
    refine List.any_eq_false.mpr fun c hc h => ?_
    exact forms c hc (List.contains_iff_mem.mp h)
  rw [isHost, hforms, bracketsInOrder, hopening, hclosing]
  rfl

/-! ### Links -/

variable {link : String}

/-- **A link whose host is in order is read.** -/
theorem parse_of_isHost (h : isHost (hostOf link) = true) : ∃ target, parse link = .ok target := by
  rw [hostOf] at h
  rw [parse]
  dsimp only
  cases bare : isBareKey (unescaped link) with
  -- a bare key has no host
  | true => exact ⟨_, rfl⟩
  -- any other text is split into parts
  | false =>
    rw [bare, if_neg (by decide)] at h
    rw [if_neg (by decide), parts]
    dsimp only
    rw [if_pos h]
    exact ⟨_, rfl⟩

/-- **Any other link is a bad value.** -/
theorem parse_of_not_isHost (h : isHost (hostOf link) = false) : parse link = .error .badValue := by
  have noHost : isHost [] = true := by decide
  rw [hostOf] at h
  rw [parse]
  dsimp only
  cases bare : isBareKey (unescaped link) with
  -- a bare key has no host to be out of order
  | true =>
    rw [bare, if_pos rfl, noHost] at h
    cases h
  -- the host is looked at before anything else
  | false =>
    rw [bare, if_neg (by decide)] at h
    rw [if_neg (by decide), parts]
    dsimp only
    rw [if_neg (by simp [h])]
    rfl

/-- A key alone names its file and no node of it. -/
theorem parse_of_isBareKey (h : isBareKey (unescaped link) = true) :
    parse link = .ok ⟨some (.ofList (unescaped link)), none⟩ := by
  rw [parse]
  dsimp only
  rw [if_pos h]
  rfl

/-- **The target of a link** that is more than a key and whose host is in order: the key is looked
for in the whole text, and the node in what follows the host. -/
theorem parse_eq (notBare : isBareKey (unescaped link) = false) {host rest : List Char}
    (hparts : hostAndRest (unescaped link) = (host, rest)) (hhost : isHost host = true) :
    parse link = .ok ⟨(fileKey? (unescaped link)).map .ofList,
      (nodeIn? (queryAndFragment rest)).map .ofList⟩ := by
  rw [parse]
  dsimp only
  rw [notBare, if_neg (by decide), parts, hparts]
  dsimp only
  rw [if_pos hhost]
  rfl

/-- How the links to the remote side begin. -/
def origin : List Char := "https://www.figma.com".toList

/-- The host of the remote side is in order. -/
theorem isHost_of_origin : isHost "www.figma.com".toList = true := by decide

/-- What follows the host of the remote side. -/
theorem hostAndRest_origin (path : List Char) :
    hostAndRest (origin ++ '/' :: path)
      = ("www.figma.com".toList, '/' :: path.filter (!isDropped ·)) := by
  rfl

/-- **The target of a link to the remote side.** -/
theorem parse_of_origin {path : List Char}
    (h : unescaped link = origin ++ '/' :: path) :
    parse link = .ok ⟨(fileKey? (origin ++ '/' :: path)).map .ofList,
      (nodeIn? (queryAndFragment ('/' :: path.filter (!isDropped ·)))).map .ofList⟩ := by
  have notBare : isBareKey (unescaped link) = false := by
    rw [h]
    rfl
  have hparts : hostAndRest (unescaped link)
      = ("www.figma.com".toList, '/' :: path.filter (!isDropped ·)) := by
    rw [h, hostAndRest_origin]
  rw [parse_eq notBare hparts isHost_of_origin, h]

/-- **The key in a link to the remote side**: it follows one of the two words and ends where there is
neither a letter nor a digit. -/
theorem fileKey?_of_announced {word key rest : List Char}
    (hword : word = "/file/".toList ∨ word = "/design/".toList) (hkey : key ≠ [])
    (hchars : key.all isKeyChar = true) (stop : ∀ c ∈ rest.head?, isKeyChar c = false) :
    fileKey? (origin ++ (word ++ (key ++ rest))) = some key := by
  -- the key ends where the characters of a key do
  have htake : (key ++ rest).takeWhile isKeyChar = key := by
    have hrest : rest.takeWhile isKeyChar = [] := by
      cases rest with
      | nil => rfl
      | cons c rest => exact List.takeWhile_cons_of_neg (by simp [stop c rfl])
    rw [List.takeWhile_append_of_pos (List.all_eq_true.mp hchars), hrest, List.append_nil]
  -- after either word stands a key
  have hannounced : keyHere? (word ++ (key ++ rest))
      = if ((key ++ rest).takeWhile isKeyChar).isEmpty then none
        else some ((key ++ rest).takeWhile isKeyChar) := by
    rcases hword with rfl | rfl
    · rfl
    · rfl
  have hhere : keyHere? (word ++ (key ++ rest)) = some key := by
    rw [hannounced, htake, if_neg (by simpa using hkey)]
  -- the words that announce a key stand nowhere in the origin
  have hskip : fileKey? (origin ++ (word ++ (key ++ rest)))
      = (keyHere? (word ++ (key ++ rest)) <|> fileKey? (word.tail ++ (key ++ rest))) := by
    rcases hword with rfl | rfl
    · rfl
    · rfl
  rw [hskip, hhere]
  rfl

end Mockup.Link
