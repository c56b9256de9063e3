/-!
# The tags of a page

A reader of markup goes through a page character by character and gives the tags that end on its way.
Every `<` in the text begins a tag for it, so that it sees whatever a stricter reader would take for
a tag.

* `Tag` — **a tag**, with its attributes as they are written;
* `Tag.Place` — where a reader is, and what it has read of the tag there;
* `Tag.Place.tags`, `Tag.Place.after` — what it gives from there on, and where it gets;
* `Tag.Place.Reads` — **a text is read** from a place to another one;
* `Tag.Place.reads_text`, `Tag.Place.reads_value` — text without a bracket gives no tag, and text
  without the quote stays in the value that the quote ends.
-/

namespace Mockup.Text

/-- **A tag**: its name, with a slash before it if it is an end tag, and its attributes. -/
structure Tag where
  name : List Char
  attributes : List (List Char × List Char)
  deriving DecidableEq

namespace Tag

/-- A tag from texts. -/
def of (name : String) (attributes : List (String × String)) : Tag :=
  ⟨name.toList, attributes.map (Prod.map String.toList String.toList)⟩

/-- A tag with an attribute more. -/
def withAttribute (tag : Tag) (key value : List Char) : Tag :=
  { tag with attributes := tag.attributes ++ [(key, value)] }

/-- What stands between the attributes of a tag. -/
def isSpace (c : Char) : Bool := [' ', '\t', '\n', '\r', '\x0c'].contains c

/-- **Where a reader is**: in the text; in the name of a tag; between its attributes; in the name of an
attribute; before its value; or in the value, which a quote ends, or nothing but a space. -/
inductive Place where
  | text
  | name (read : List Char)
  | between (tag : Tag)
  | attributeName (tag : Tag) (read : List Char)
  | start (tag : Tag) (key : List Char)
  | value (tag : Tag) (key : List Char) (quote : Option Char) (read : List Char)
  deriving DecidableEq

namespace Place

/-- The tag that is complete if it ends here. -/
def tag? : Place → Option Tag
  | text => none
  | name read => some ⟨read, []⟩
  | between tag => some tag
  | attributeName tag read => some (tag.withAttribute read [])
  | start tag key => some (tag.withAttribute key [])
  | value _ _ (some _) _ => none
  | value tag key none read => some (tag.withAttribute key read)

/-- The place behind a character that neither ends the tag nor is a space. -/
def grow (c : Char) : Place → Place
  | text => if c = '<' then name [] else text
  | name read => name (read ++ [c])
  | between tag => attributeName tag [c]
  | attributeName tag read => if c = '=' then start tag read else attributeName tag (read ++ [c])
  | start tag key =>
    if c = '"' ∨ c = '\'' then value tag key (some c) [] else value tag key none [c]
  | value tag key (some quote) read =>
    if c = quote then between (tag.withAttribute key read) else value tag key (some quote) (read ++ [c])
  | value tag key none read => value tag key none (read ++ [c])

/-- The place behind a space. A space stands where it is before a value. -/
def space (place : Place) : Place :=
  match place with
  | start tag key => start tag key
  | place => (place.tag?.map between).getD place

/-- **One character further.** Where a tag may end, a bracket ends it and a space ends its part; in the
text and between quotes they are characters as any other. -/
def step (place : Place) (c : Char) : Place × List Tag :=
  match place.tag? with
  | none => (place.grow c, [])
  | some tag =>
    if c = '>' then (text, [tag]) else if isSpace c then (place.space, []) else (place.grow c, [])

/-- **The tags from a place on.** -/
def tags : Place → List Char → List Tag
  | _, [] => []
  | place, c :: rest => (place.step c).2 ++ (place.step c).1.tags rest

/-- The place where a text ends. -/
def after (place : Place) (cs : List Char) : Place := cs.foldl (fun place c => (place.step c).1) place

/-- **A text is read** from a place to another one, and gives tags on the way. -/
def Reads (place : Place) (cs : List Char) (given : List Tag) (next : Place) : Prop :=
  place.after cs = next ∧ place.tags cs = given

variable {place middle next : Place} {first second cs : List Char} {given later : List Tag}

/-- **Text that comes after other text** is read from where that ends. -/
theorem Reads.tags_append (h : place.Reads first given middle) (second : List Char) :
    place.tags (first ++ second) = given ++ middle.tags second := by
  obtain ⟨rfl, rfl⟩ := h
  induction first generalizing place with
  | nil => rfl
  | cons c rest ih => rw [List.cons_append, tags, ih, tags, List.append_assoc]; rfl

theorem Reads.append (h : place.Reads first given middle) (hsecond : middle.Reads second later next) :
    place.Reads (first ++ second) (given ++ later) next := by
  refine ⟨?_, (h.tags_append second).trans (by rw [hsecond.2])⟩
  rw [after, List.foldl_append]
  exact (congrArg (·.after second) h.1).trans hsecond.1

/-- One character that gives no tag, and what comes after it. -/
theorem Reads.cons {c : Char} (hstep : place.step c = (middle, [])) (h : middle.Reads cs given next) :
    place.Reads (c :: cs) given next := by
  rw [Reads, after, List.foldl_cons, tags, hstep]
  exact h

/-- **Text without a bracket** gives no tag. -/
theorem reads_text (h : '<' ∉ cs) : text.Reads cs [] text := by
  induction cs with
  | nil => exact ⟨rfl, rfl⟩
  | cons c rest ih =>
    have plain : c ≠ '<' := fun same => h (same ▸ List.mem_cons_self)
    exact .cons (congrArg (·, []) (if_neg plain)) (ih fun hmem => h (List.mem_cons_of_mem _ hmem))

/-- **Text without the quote** stays in the value that the quote ends. -/
theorem reads_value {quote : Char} (h : quote ∉ cs) (tag : Tag) (key read : List Char) :
    (value tag key (some quote) read).Reads cs [] (value tag key (some quote) (read ++ cs)) := by
  induction cs generalizing read with
  | nil => exact ⟨congrArg _ (List.append_nil read).symm, rfl⟩
  | cons c rest ih =>
    have plain : c ≠ quote := fun same => h (same ▸ List.mem_cons_self)
    have hrest := ih (fun hmem => h (List.mem_cons_of_mem _ hmem)) (read ++ [c])
    rw [List.append_assoc, List.singleton_append] at hrest
    exact .cons (congrArg (·, []) (if_neg plain)) hrest

/-- **The quote ends the value**, and a bracket after it the tag. -/
theorem reads_valueEnd (quote : Char) (tag : Tag) (key read : List Char) :
    (value tag key (some quote) read).Reads [quote, '>'] [tag.withAttribute key read] text := by
  have hstep : (value tag key (some quote) read).step quote
      = (between (tag.withAttribute key read), []) := congrArg (·, []) (if_pos rfl)
  exact .cons hstep ⟨rfl, rfl⟩

end Place

/-- **The tags of a page.** -/
def tagsOf (page : List Char) : List Tag := Place.text.tags page

/-- A space before a value does not begin it, and a bracket in a value does not end the tag. -/
example : tagsOf "<a href= \"x>y\" b>z</a >".toList
    = [.of "a" [("href", "x>y"), ("b", "")], .of "/a" []] := by decide

end Tag

end Mockup.Text
