import Mockup.Page.Emission
import Mockup.Proofs.Text.Escape

/-!
# Reading markup back

`Element.render` writes elements as one text. This module reads such a text back, without knowing
what it was written from: first its tokens, then the forest that the tags enclose. A reader fails
where a `<` begins none of the three tags there are, and where the tags are not balanced.

* `Token`, `Token.read?`, `Token.classNames?` — the tags and characters of a text, and the class
  attributes of its tags;
* `Markup`, `Markup.read?` — the forest of its divisions;
* `BeginsTag` — what a `<` has to begin;
* `Element.markup` — the forest that an element is to be read as.

**Reading inverts writing** (`Markup.read?_renderAll`) for elements whose class names are names. The
argument has two halves, one for each reader. A token that is written is read first and alone
(`Token.scan_text_append`), since no text inside a tag has a `>`. And the tags of a tree, whatever
is open around them, leave behind just the tree (`Markup.build_tokens_append`).
-/

namespace Mockup

open Text

/-! ### Tokens -/

/-- **A token of markup**: a tag, or a character that belongs to none. -/
inductive Token where
  | opening (className : String)
  | closing
  | lineBreak
  | char (c : Char)
  deriving DecidableEq

/-- **Names of classes**: one or more letters, digits, `_` and `-`. -/
def IsClassName (name : List Char) : Prop := name ≠ [] ∧ ∀ c ∈ name, isNameChar c = true

instance (name : List Char) : Decidable (IsClassName name) :=
  decidable_of_iff ((!name.isEmpty && name.all isNameChar) = true) (by simp [IsClassName])

/-- What stands between `<` and `>` in an opening tag. -/
def openingText (name : List Char) : List Char := "div class=\"".toList ++ name ++ ['"']

theorem openingText_eq (name : List Char) :
    openingText name = 'd' :: 'i' :: 'v' :: ' ' :: 'c' :: 'l' :: 'a' :: 's' :: 's' :: '=' :: '"'
      :: (name ++ ['"']) := rfl

namespace Token

/-- The text of a token. -/
def text : Token → List Char
  | .opening className => '<' :: (openingText className.toList ++ ['>'])
  | .closing => "</div>".toList
  | .lineBreak => "<br/>".toList
  | .char c => [c]

theorem text_opening (className : String) :
    text (.opening className) = "<div class=\"".toList ++ className.toList ++ "\">".toList :=
  congrArg (('<' :: "div class=\"".toList) ++ ·) (List.append_assoc className.toList ['"'] ['>'])

/-- The tag with a given text between `<` and `>`, if there is one. -/
def ofTag? (inside : List Char) : Option Token :=
  -- an opening tag has eleven characters before the class and a quote after it
  let name := (inside.drop 11).dropLast
  if inside = "/div".toList then some .closing
  else if inside = "br/".toList then some .lineBreak
  else if IsClassName name ∧ inside = openingText name then some (.opening (.ofList name))
  else none

/-- Reads the tokens of a text; `tag` is what has been read of a tag that is not at its end. -/
def scan : (tag : Option (List Char)) → List Char → Option (List Token)
  | none, [] => some []
  | some _, [] => none
  | none, c :: rest => if c = '<' then scan (some []) rest else (.char c :: ·) <$> scan none rest
  | some inside, c :: rest =>
    if c = '>' then do return (← ofTag? inside) :: (← scan none rest)
    else scan (some (inside ++ [c])) rest

/-- **Reading the tokens of markup.** -/
def read? (markup : String) : Option (List Token) := scan none markup.toList

/-- The class of an opening tag. -/
def className? : Token → Option String
  | .opening className => some className
  | _ => none

/-- **The class attributes of markup**, read from left to right. -/
def classNames? (markup : String) : Option (List String) :=
  (read? markup).map (·.filterMap className?)

/-- Tokens that markup may have: the class of a tag is a name, and what belongs to no tag is
no `<`. -/
def Sound : Token → Prop
  | .opening className => IsClassName className.toList
  | .char c => c ≠ '<'
  | _ => True

/-- An opening tag with the name of a class is read as such. -/
theorem ofTag?_openingText {name : List Char} (h : IsClassName name) :
    ofTag? (openingText name) = some (.opening (.ofList name)) := by
  -- the name is what stands between the quotes
  have hname : ((openingText name).drop 11).dropLast = name := by
    rw [openingText_eq]
    exact List.dropLast_concat
  -- an opening is neither a closing nor a line break
  have notClosing : openingText name ≠ "/div".toList := by
    rw [openingText_eq]
    exact fun e => absurd (List.cons.inj e).1 (by decide)
  have notBreak : openingText name ≠ "br/".toList := by
    rw [openingText_eq]
    exact fun e => absurd (List.cons.inj e).1 (by decide)
  simp only [ofTag?, hname]
  rw [if_neg notClosing, if_neg notBreak]
  exact if_pos ⟨h, trivial⟩

theorem not_mem_openingText {name : List Char} (h : IsClassName name) {c : Char}
    (hc : c = '<' ∨ c = '>') : c ∉ openingText name := by
  have hname : c ∉ name := by
    intro hmem
    rcases hc with rfl | rfl <;> exact absurd (h.2 _ hmem) (by decide)
  rw [openingText_eq]
  rcases hc with rfl | rfl <;> simp [hname]

/-- **Characters and tags.** A sound token is a character other than `<`, or its text is a tag
without a further `<` or `>` inside, from which it is read. -/
theorem Sound.cases {t : Token} (h : t.Sound) :
    (∃ c, t = .char c ∧ c ≠ '<') ∨
      ∃ inside, t.text = '<' :: (inside ++ ['>']) ∧ '<' ∉ inside ∧ '>' ∉ inside
        ∧ ofTag? inside = some t := by
  cases t with
  | opening className =>
    refine .inr ⟨openingText className.toList, rfl, not_mem_openingText h (.inl rfl),
      not_mem_openingText h (.inr rfl), ?_⟩
    rw [ofTag?_openingText h, String.ofList_toList]
  | closing => exact .inr ⟨"/div".toList, by decide, by decide, by decide, by decide⟩
  | lineBreak => exact .inr ⟨"br/".toList, by decide, by decide, by decide, by decide⟩
  | char c => exact .inl ⟨c, rfl, h⟩

/-- A tag that has begun is read up to its `>`. -/
theorem scan_inside {body : List Char} (h : '>' ∉ body) (inside rest : List Char) :
    scan (some inside) (body ++ '>' :: rest)
      = do return (← ofTag? (inside ++ body)) :: (← scan none rest) := by
  -- what has been read of the tag grows at its end while the rest of it gets shorter
  induction body generalizing inside with
  | nil => simp [scan]
  | cons c body ih =>
    have hc : c ≠ '>' := fun e => h (e ▸ List.mem_cons_self)
    rw [List.cons_append, scan, if_neg hc, ih fun hb => h (List.mem_cons_of_mem _ hb),
      List.append_assoc, List.singleton_append]

/-- **A token that is written is read first.** -/
theorem scan_text_append {t : Token} (h : t.Sound) (rest : List Char) :
    scan none (t.text ++ rest) = (t :: ·) <$> scan none rest := by
  rcases h.cases with ⟨c, rfl, hc⟩ | ⟨inside, htext, -, hgt, htag⟩
  · -- outside tags a character is a token by itself
    change scan none (c :: rest) = _
    rw [scan, if_neg hc]
  · -- a tag ends with the first `>` after its `<`, which is its own
    rw [htext, List.cons_append, List.append_assoc, scan, if_pos rfl, List.singleton_append,
      scan_inside hgt, List.nil_append, htag]
    cases scan none rest <;> rfl

/-- Tokens that are written one after the other are read back. -/
theorem scan_flatMap_text {ts : List Token} (h : ∀ t ∈ ts, t.Sound) :
    scan none (ts.flatMap text) = some ts := by
  induction ts with
  | nil => rfl
  | cons t rest ih =>
    rw [List.flatMap_cons, scan_text_append (h t List.mem_cons_self),
      ih fun u hu => h u (List.mem_cons_of_mem _ hu)]
    rfl

end Token

/-! ### What a `<` begins -/

/-- **What a `<` has to begin**: an opening tag of a division with the name of a class, the closing
tag of a division, or a line break. -/
def BeginsTag (cs : List Char) : Prop :=
  (∃ name, IsClassName name ∧ "<div class=\"".toList ++ name ++ "\">".toList <+: cs)
    ∨ "</div>".toList <+: cs ∨ "<br/>".toList <+: cs

/-- A sound token that begins with `<` is one of the three tags. -/
theorem Token.Sound.beginsTag {t : Token} (h : t.Sound) (notChar : ∀ c, t ≠ .char c)
    (rest : List Char) : BeginsTag (t.text ++ rest) := by
  cases t with
  | opening className =>
    refine .inl ⟨className.toList, h, ?_⟩
    rw [Token.text_opening]
    exact List.prefix_append _ rest
  | closing => exact .inr (.inl (List.prefix_append _ _))
  | lineBreak => exact .inr (.inr (List.prefix_append _ _))
  | char c => exact absurd rfl (notChar c)

/-- **No other `<`.** In a text made of sound tokens every `<` begins a tag. -/
theorem beginsTag_of_flatMap_text {ts : List Token} (h : ∀ t ∈ ts, t.Sound)
    {before after : List Char} (split : ts.flatMap Token.text = before ++ '<' :: after) :
    BeginsTag ('<' :: after) := by
  induction ts generalizing before with
  | nil => simp at split
  | cons t rest ih =>
    have hrest : ∀ u ∈ rest, u.Sound := fun u hu => h u (List.mem_cons_of_mem _ hu)
    -- the text of the first token, then that of the others
    rw [List.flatMap_cons] at split
    -- the `<` stands after the first token, or in it
    rcases List.append_eq_append_iff.mp split with ⟨before', rfl, split'⟩ | ⟨tail, htext, htail⟩
    · exact ih hrest split'
    rcases (h t List.mem_cons_self).cases with ⟨c, rfl, hc⟩ | ⟨inside, hinside, hlt, -, -⟩
    · -- the token is one character, and that is no `<`
      cases tail with
      | nil =>
        have split' : rest.flatMap Token.text = [] ++ '<' :: after := htail.symm
        exact ih hrest split'
      | cons d tail =>
        obtain ⟨rfl, -⟩ : '<' = d ∧ after = tail ++ rest.flatMap Token.text := by
          simpa using htail
        have hmem : '<' ∈ (Token.char c).text := by rw [htext]; simp
        exact absurd (List.mem_singleton.mp hmem).symm hc
    · -- the token is a tag, whose only `<` is its first character
      cases before with
      | nil =>
        rw [List.nil_append] at htext
        rw [htail, ← htext]
        refine (h t List.mem_cons_self).beginsTag (fun c hc => ?_) _
        subst hc
        change [c] = '<' :: (inside ++ ['>']) at hinside
        simp at hinside
      | cons d before =>
        rw [hinside, List.cons_append, List.cons.injEq] at htext
        cases tail with
        | nil =>
          have split' : rest.flatMap Token.text = [] ++ '<' :: after := htail.symm
          exact ih hrest split'
        | cons e tail =>
          obtain ⟨rfl, -⟩ : '<' = e ∧ after = tail ++ rest.flatMap Token.text := by
            simpa using htail
          have hmem : '<' ∈ inside ++ ['>'] := by rw [htext.2]; simp
          simp only [List.mem_append, List.mem_singleton] at hmem
          rcases hmem with hmem | hmem
          · exact absurd hmem hlt
          · exact absurd hmem (by decide)

/-! ### Forests -/

/-- **A piece of markup**: a division with its class and content, a line break, or a character. -/
inductive Markup where
  | division (className : String) (content : List Markup)
  | lineBreak
  | char (c : Char)

namespace Markup

/-- Puts tokens together. `content` is what has been read of the innermost division that is still
open, and `outer` tells of the divisions around it: the class of each, and what stood before it. -/
def build (outer : List (String × List Markup)) (content : List Markup) :
    List Token → Option (List Markup)
  | [] => if outer.isEmpty then some content else none
  | .opening className :: rest => build ((className, content) :: outer) [] rest
  | .closing :: rest =>
    match outer with
    | [] => none
    | (className, before) :: outer => build outer (before ++ [.division className content]) rest
  | .lineBreak :: rest => build outer (content ++ [.lineBreak]) rest
  | .char c :: rest => build outer (content ++ [.char c]) rest

/-- **Reading markup**: its tokens, put together to a forest. -/
def read? (markup : String) : Option (List Markup) := Token.read? markup >>= build [] []

mutual

/-- The tokens of a piece of markup. -/
def tokens : Markup → List Token
  | .division className content => .opening className :: (tokensOf content ++ [.closing])
  | .lineBreak => [.lineBreak]
  | .char c => [.char c]

/-- The tokens of pieces of markup one after the other. -/
def tokensOf : List Markup → List Token
  | [] => []
  | piece :: rest => piece.tokens ++ tokensOf rest

end

/-- **The source of pieces of markup**: the text that they are read from. -/
def source (pieces : List Markup) : List Char := (tokensOf pieces).flatMap Token.text

@[simp] theorem tokensOf_nil : tokensOf [] = [] := rfl

@[simp] theorem tokensOf_cons (piece : Markup) (rest : List Markup) :
    tokensOf (piece :: rest) = piece.tokens ++ tokensOf rest := rfl

@[simp] theorem tokensOf_append (a b : List Markup) :
    tokensOf (a ++ b) = tokensOf a ++ tokensOf b := by
  induction a with
  | nil => rfl
  | cons piece rest ih => simp [ih]

mutual

/-- **The tags of a piece leave the piece behind**, whatever is open around it. -/
theorem build_tokens_append (piece : Markup) (outer : List (String × List Markup))
    (content : List Markup) (rest : List Token) :
    build outer content (piece.tokens ++ rest) = build outer (content ++ [piece]) rest := by
  cases piece with
  | division className inner =>
    -- the opening tag puts aside what stands before it, and the closing tag takes it up again
    rw [tokens, List.cons_append, List.append_assoc, build, build_tokensOf_append inner]
    rfl
  | lineBreak => rfl
  | char c => rfl

theorem build_tokensOf_append (pieces : List Markup) (outer : List (String × List Markup))
    (content : List Markup) (rest : List Token) :
    build outer content (tokensOf pieces ++ rest) = build outer (content ++ pieces) rest := by
  cases pieces with
  | nil => simp
  | cons piece pieces =>
    rw [tokensOf_cons, List.append_assoc, build_tokens_append piece,
      build_tokensOf_append pieces, List.append_assoc, List.singleton_append]

end

/-- A forest whose tokens are sound is read from its source. -/
theorem read?_of_toList_eq {markup : String} {pieces : List Markup}
    (sound : ∀ t ∈ tokensOf pieces, t.Sound) (h : markup.toList = source pieces) :
    read? markup = some pieces := by
  rw [read?, Token.read?, h, source, Token.scan_flatMap_text sound]
  have hbuild := build_tokensOf_append pieces [] [] []
  rwa [List.append_nil, List.nil_append] at hbuild

end Markup

/-! ### The text of a label as markup -/

namespace Markup

/-- The pieces that a character of a label is written as. -/
def ofLabelChar (c : Char) : List Markup :=
  if c = '\n' then [.lineBreak] else (labelCode c).map .char

theorem tokensOf_map_char (cs : List Char) : tokensOf (cs.map .char) = cs.map .char := by
  induction cs with
  | nil => rfl
  | cons c rest ih => rw [List.map_cons, tokensOf_cons, ih]; rfl

theorem source_append (a b : List Markup) : source (a ++ b) = source a ++ source b := by
  rw [source, tokensOf_append, List.flatMap_append, source, source]

/-- The code of a character other than a line end has no `<`. -/
theorem not_mem_labelCode {c : Char} (newline : c ≠ '\n') : '<' ∉ labelCode c := by
  unfold labelCode
  split
  · decide
  split
  · decide
  split
  · decide
  next lt _ => simpa using Ne.symm lt

theorem source_ofLabelChar (c : Char) : source (ofLabelChar c) = labelCode c := by
  by_cases newline : c = '\n'
  · subst newline; rfl
  · rw [ofLabelChar, if_neg newline, source, tokensOf_map_char, List.flatMap_map]
    exact List.flatMap_singleton' _

/-- What is written for a label is the text that its pieces are read from. -/
theorem source_flatMap_ofLabelChar (cs : List Char) :
    source (cs.flatMap ofLabelChar) = cs.flatMap labelCode := by
  induction cs with
  | nil => rfl
  | cons c rest ih =>
    rw [List.flatMap_cons, source_append, source_ofLabelChar, ih, List.flatMap_cons]

/-- The tokens of a label are sound, and none opens a division. -/
theorem tokensOf_flatMap_ofLabelChar {cs : List Char} {t : Token}
    (h : t ∈ tokensOf (cs.flatMap ofLabelChar)) : t.Sound ∧ t.className? = none := by
  induction cs with
  | nil => cases h
  | cons c rest ih =>
    rw [List.flatMap_cons, tokensOf_append, List.mem_append] at h
    rcases h with h | h
    -- a line end becomes a break
    · by_cases newline : c = '\n'
      · subst newline
        obtain rfl : t = .lineBreak := by simpa [ofLabelChar, tokens] using h
        exact ⟨trivial, rfl⟩
      -- any other character becomes its code, which has no angle bracket
      · rw [ofLabelChar, if_neg newline, tokensOf_map_char] at h
        obtain ⟨d, hd, rfl⟩ := List.mem_map.mp h
        exact ⟨fun e => not_mem_labelCode newline (e ▸ hd), rfl⟩
    -- one of the characters after it
    · exact ih h

end Markup

/-! ### Elements as markup -/

namespace Element

mutual

/-- **The markup that an element is to be read as.** -/
def markup : Element → Markup
  | .box className content => .division className (markupOf content)
  | .label className text => .division className (text.toList.flatMap Markup.ofLabelChar)

/-- The markup that elements one after the other are to be read as. -/
def markupOf : List Element → List Markup
  | [] => []
  | element :: rest => element.markup :: markupOf rest

end

mutual

/-- The classes of an element and of what is in it, from left to right. -/
def classNames : Element → List String
  | .box className content => className :: classNamesOf content
  | .label className _ => [className]

/-- The classes of elements one after the other. -/
def classNamesOf : List Element → List String
  | [] => []
  | element :: rest => element.classNames ++ classNamesOf rest

end

theorem classNamesOf_append (a b : List Element) :
    classNamesOf (a ++ b) = classNamesOf a ++ classNamesOf b := by
  induction a with
  | nil => rfl
  | cons element rest ih => rw [List.cons_append, classNamesOf, ih, classNamesOf, List.append_assoc]

/-- The text around the content of an element is that of its two tags. -/
theorem toList_enclose (className content : String) :
    (enclose className content).toList
      = Token.text (.opening className) ++ content.toList ++ "</div>".toList := by
  -- for any three texts around the two, so that none of the literals is unfolded
  have parts : ∀ a b c : String, (a ++ className ++ b ++ content ++ c).toList
      = a.toList ++ className.toList ++ b.toList ++ content.toList ++ c.toList := by
    intro a b c
    simp only [String.toList_append]
  rw [Token.text_opening]
  exact parts "<div class=\"" "\">" "</div>"

mutual

/-- **What is written is the source** of the markup that is to be read. -/
theorem toList_render (element : Element) :
    element.render.toList = element.markup.tokens.flatMap Token.text := by
  cases element with
  | box className content =>
    rw [render, toList_enclose, toList_renderAll content, markup, Markup.tokens,
      List.flatMap_cons, List.flatMap_append, List.append_assoc]
    rfl
  | label className text =>
    rw [render, toList_enclose, toList_escape, ← Markup.source_flatMap_ofLabelChar, markup,
      Markup.tokens, List.flatMap_cons, List.flatMap_append, List.append_assoc]
    rfl

theorem toList_renderAll (elements : List Element) :
    (renderAll elements).toList = Markup.source (markupOf elements) := by
  cases elements with
  | nil => rfl
  | cons element rest =>
    rw [renderAll, String.toList_append, toList_render element, toList_renderAll rest, markupOf,
      Markup.source, Markup.source, Markup.tokensOf_cons, List.flatMap_append]

end

mutual

/-- Elements whose class names are names have sound tokens. -/
theorem sound_of_mem_tokens (element : Element)
    (h : ∀ name ∈ element.classNames, IsClassName name.toList) :
    ∀ t ∈ element.markup.tokens, t.Sound := by
  cases element with
  -- an opening, the content and a closing
  | box className content =>
    have hcontent := sound_of_mem_tokensOf content
      fun name hn => h name (by rw [classNames]; exact List.mem_cons_of_mem _ hn)
    have hname : IsClassName className.toList := h className (by rw [classNames]; simp)
    intro t ht
    rw [markup, Markup.tokens, List.mem_cons, List.mem_append, List.mem_singleton] at ht
    rcases ht with rfl | ht | rfl
    · exact hname
    · exact hcontent t ht
    · trivial
  -- the same with the characters of a label
  | label className text =>
    have hname : IsClassName className.toList := h className (by rw [classNames]; simp)
    intro t ht
    rw [markup, Markup.tokens, List.mem_cons, List.mem_append, List.mem_singleton] at ht
    rcases ht with rfl | ht | rfl
    · exact hname
    · exact (Markup.tokensOf_flatMap_ofLabelChar ht).1
    · trivial

theorem sound_of_mem_tokensOf (elements : List Element)
    (h : ∀ name ∈ classNamesOf elements, IsClassName name.toList) :
    ∀ t ∈ Markup.tokensOf (markupOf elements), t.Sound := by
  cases elements with
  | nil => exact fun t ht => absurd ht List.not_mem_nil
  | cons element rest =>
    intro t ht
    rw [markupOf, Markup.tokensOf_cons, List.mem_append] at ht
    rw [classNamesOf] at h
    rcases ht with ht | ht
    · exact sound_of_mem_tokens element (fun name hn => h name (List.mem_append_left _ hn)) t ht
    · exact sound_of_mem_tokensOf rest (fun name hn => h name (List.mem_append_right _ hn)) t ht

-- the class of the box, then those of its content
end

/-- An opening tag carries its class. -/
theorem filterMap_className?_opening (className : String) (ts : List Token) :
    (Token.opening className :: ts).filterMap Token.className?
      -- a label opens no division
      = className :: ts.filterMap Token.className? := rfl

mutual

/-- The opening tags of an element carry its classes, from left to right. -/
theorem filterMap_className?_tokens (element : Element) :
    element.markup.tokens.filterMap Token.className? = element.classNames := by
  cases element with
  | box className content =>
    rw [markup, Markup.tokens, classNames, filterMap_className?_opening, List.filterMap_append,
      filterMap_className?_tokensOf content]
    exact congrArg (className :: ·) (List.append_nil _)
  | label className text =>
    have none_opens : (Markup.tokensOf (text.toList.flatMap Markup.ofLabelChar)).filterMap
        Token.className? = [] :=
      List.filterMap_eq_nil_iff.mpr fun t ht => (Markup.tokensOf_flatMap_ofLabelChar ht).2
    rw [markup, Markup.tokens, classNames, filterMap_className?_opening, List.filterMap_append,
      none_opens]
    rfl

theorem filterMap_className?_tokensOf (elements : List Element) :
    (Markup.tokensOf (markupOf elements)).filterMap Token.className? = classNamesOf elements := by
  cases elements with
  | nil => rfl
  | cons element rest =>
    rw [markupOf, Markup.tokensOf_cons, List.filterMap_append,
      filterMap_className?_tokens element, filterMap_className?_tokensOf rest, classNamesOf]

end

section Named

variable {elements : List Element}
  (named : ∀ name ∈ classNamesOf elements, IsClassName name.toList)

include named

/-- **Tokens of a page.** The tokens of what is written for elements are those of the forest that it
is to be read as. -/
theorem tokens_renderAll :
    Token.read? (renderAll elements) = some (Markup.tokensOf (markupOf elements)) := by
  rw [Token.read?, toList_renderAll, Markup.source]
  exact Token.scan_flatMap_text (sound_of_mem_tokensOf elements named)

/-- The class attributes of what is written for elements are their classes. -/
theorem classNames?_renderAll :
    Token.classNames? (renderAll elements) = some (classNamesOf elements) := by
  rw [Token.classNames?, tokens_renderAll named, Option.map_some,
    filterMap_className?_tokensOf]

/-- **Reading inverts writing.** -/
theorem read?_renderAll : Markup.read? (renderAll elements) = some (markupOf elements) :=
  Markup.read?_of_toList_eq (sound_of_mem_tokensOf elements named) (toList_renderAll elements)

/-- Every `<` in what is written for elements begins a tag. -/
theorem beginsTag_of_renderAll {before after : List Char}
    (split : (renderAll elements).toList = before ++ '<' :: after) : BeginsTag ('<' :: after) := by
  rw [toList_renderAll] at split
  exact beginsTag_of_flatMap_text (sound_of_mem_tokensOf elements named) split

end Named

end Element

end Mockup
