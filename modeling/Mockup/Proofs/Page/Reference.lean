import Mockup.Proofs.Command.FileName
import Mockup.Proofs.Page.Template
import Mockup.Proofs.Text.Alphanumeric
import Mockup.Proofs.Text.Percent

/-!
# From a page to its stylesheet

A page refers to its stylesheet by the name of the file. The name is written as the value of an
attribute, and a reader who has read the value takes it for a reference: what comes after a question
mark or a number sign belongs to something else, and escapes stand for bytes. The name is not written
as a reference, so a title that has a number sign or an escape leads the reader elsewhere.

* `referencePath` — the path that a relative reference names;
* `referencePath_eq_self_iff` — **a name is the path that it names as a reference exactly when it has
  no question mark, no number sign and no escape**;
* `Path.baseName?` — the base name of a path;
* `stylesheet_found_iff` — **a page finds its stylesheet exactly when its title has no number sign and
  no escape.**
-/

namespace Mockup

open Text

/-! ### References -/

/-- Whether a character ends the path of a reference. -/
def endsPath (c : Char) : Bool := c == '?' || c == '#'

/-- **The path that a relative reference names**: what stands before its query and its fragment,
without its escapes. -/
def referencePath (reference : List Char) : List Char :=
  Percent.decode (reference.takeWhile (!endsPath ·))

theorem endsPath_eq_false_iff {c : Char} : endsPath c = false ↔ c ≠ '?' ∧ c ≠ '#' := by
  rw [endsPath, Bool.or_eq_false_iff, beq_eq_false_iff_ne, beq_eq_false_iff_ne]

/-- **A name is the path that it names** exactly when nothing in it means something else in a
reference. What is cut off is missing, for reading escapes makes nothing longer. -/
theorem referencePath_eq_self_iff {cs : List Char} :
    referencePath cs = cs ↔ '?' ∉ cs ∧ '#' ∉ cs ∧ ¬ Percent.HasEscape cs := by
  -- nothing is cut off without a question mark or a fragment mark
  have hwhole : cs.takeWhile (!endsPath ·) = cs ↔ '?' ∉ cs ∧ '#' ∉ cs := by
    simp only [List.takeWhile_eq_self_iff, Bool.not_eq_true', endsPath_eq_false_iff, forall_and,
      ne_eq, List.forall_mem_ne']
  -- the path kept its length, so nothing was cut off and nothing decoded
  constructor
  · intro hself
    have hcut : cs.takeWhile (!endsPath ·) = cs := by
      have hlength := congrArg List.length hself
      have hdecode := Percent.length_decodeAfter_le [] (cs.takeWhile (!endsPath ·))
      rw [← Percent.decode, ← referencePath, hlength, List.length_nil, Nat.zero_add] at hdecode
      exact (List.takeWhile_prefix _).eq_of_length_le hdecode
    obtain ⟨question, number⟩ := hwhole.mp hcut
    rw [referencePath, hcut] at hself
    exact ⟨question, number, Percent.decode_eq_self_iff.mp hself⟩
  -- all of it is the path, and there is nothing to decode
  · rintro ⟨question, number, escape⟩
    rw [referencePath, hwhole.mpr ⟨question, number⟩, Percent.decode_eq_self_iff.mpr escape]

/-! ### Names as references -/

/-- The two characters of an escape are letters or digits. -/
theorem isAlphanum_of_byte? {high low : Char} (h : (Percent.byte? high low).isSome = true) :
    high.isAlphanum = true ∧ low.isAlphanum = true := by
  obtain ⟨byte, hbyte⟩ := Option.isSome_iff_exists.mp h
  obtain ⟨highValue, hhigh, hbyte⟩ := Option.bind_eq_some_iff.mp hbyte
  obtain ⟨lowValue, hlow, -⟩ := Option.bind_eq_some_iff.mp hbyte
  exact ⟨isAlphanum_of_hexValue? (Option.isSome_of_eq_some hhigh),
    isAlphanum_of_hexValue? (Option.isSome_of_eq_some hlow)⟩

/-- The ending of a stylesheet has no part in an escape. -/
theorem hasEscape_append_css_iff (name : List Char) :
    Percent.HasEscape (name ++ ".css".toList) ↔ Percent.HasEscape name := by
  refine exists_congr fun high => exists_congr fun low => and_congr_left fun hbyte => ?_
  -- the digits of an escape are no point
  obtain ⟨hhigh, hlow⟩ := isAlphanum_of_byte? hbyte
  have point : '.' ∉ ['%', high, low] := by
    intro h
    simp only [List.mem_cons, List.not_mem_nil, or_false] at h
    rcases h with h | rfl | rfl
    · exact absurd h (by decide)
    · exact absurd hhigh (by decide)
    · exact absurd hlow (by decide)
  -- an escape is on one side of the point, and not in the ending
  have hending : ".css".toList = '.' :: "css".toList := by decide
  rw [hending, infix_append_cons_iff point]
  refine or_iff_left fun h => ?_
  exact absurd (h.mem List.mem_cons_self) (by decide)

namespace FileName

theorem isPlain_of_isAlphanum {c : Char} (h : c.isAlphanum = true) : isPlain c = true :=
  ascii_of_isAlphanum (p := fun c => isPlain c = true) (by decide) h

variable (title : String)

/-- A number sign in a name is one of the title. -/
theorem number_mem_ofTitle_iff : '#' ∈ (ofTitle title).toList ↔ '#' ∈ title.toList := by
  rw [← List.singleton_infix_iff, ← List.singleton_infix_iff]
  exact infix_ofTitle_iff (List.forall_mem_singleton.mpr (by decide)) (List.cons_ne_nil _ _) (by decide)

/-- An escape in a name is one of the title. -/
theorem hasEscape_ofTitle_iff :
    Percent.HasEscape (ofTitle title).toList ↔ Percent.HasEscape title.toList := by
  refine exists_congr fun high => exists_congr fun low => and_congr_left fun hbyte => ?_
  obtain ⟨hhigh, hlow⟩ := isAlphanum_of_byte? hbyte
  have plain : ∀ c ∈ ['%', high, low], isPlain c = true := by
    simp only [List.forall_mem_cons]
    exact ⟨by decide, isPlain_of_isAlphanum hhigh, isPlain_of_isAlphanum hlow, List.forall_mem_nil _⟩
  refine infix_ofTitle_iff plain (List.cons_ne_nil _ _) fun own => ?_
  have percent : '%' ∉ fallback.toList := by decide
  exact percent (own.mem List.mem_cons_self)

end FileName

/-- **The name of a stylesheet is the path that it names** exactly when the title has no number sign
and no escape. -/
theorem referencePath_stylesheetName_iff (title : String) :
    referencePath (stylesheetName title).toList = (stylesheetName title).toList
      ↔ '#' ∉ title.toList ∧ ¬ Percent.HasEscape title.toList := by
  have hname : (stylesheetName title).toList = (FileName.ofTitle title).toList ++ ".css".toList := by
    rw [stylesheetName, String.toList_append]
  -- a file name has no question mark
  have question : '?' ∉ (stylesheetName title).toList := by
    rw [hname]
    intro h
    rcases List.mem_append.mp h with h | h
    · exact (FileName.ofTitle_isSafe title).forbidden '?' (by decide) h
    · exact absurd h (by decide)
  -- a fragment mark is one of the title
  have number : '#' ∈ (stylesheetName title).toList ↔ '#' ∈ title.toList := by
    rw [hname, List.mem_append, FileName.number_mem_ofTitle_iff]
    exact or_iff_left (by decide)
  -- an escape is one of the title
  have escape : Percent.HasEscape (stylesheetName title).toList ↔ Percent.HasEscape title.toList := by
    rw [hname, hasEscape_append_css_iff, FileName.hasEscape_ofTitle_iff]
  rw [referencePath_eq_self_iff, number, escape]
  exact and_iff_right question

/-! ### Base names -/

namespace Path

/-- **The base name of a path**: the last of its names. -/
def baseName? (path : String) : Option String := (segments path).getLast?

/-- The base name of a path below a directory. -/
theorem baseName?_join {name : String} (h : IsName name) (directory : String) :
    baseName? (join directory name) = some name := by
  -- the last segment is what follows the last slash
  have hslash {path : String} (before : List Char) (hpath : path.toList = before ++ '/' :: name.toList) :
      baseName? path = some name := by
    rw [baseName?, segments_of_toList_eq hpath, String.ofList_toList, segments_of_isName h,
      List.getLast?_concat]
  rw [join, not_isAbsolute_of_isName h, if_neg (by decide)]
  by_cases empty : directory.toList = []
  · -- the name stands alone
    obtain rfl : directory = "" := String.toList_inj.mp (empty.trans (by decide))
    rw [if_pos (by decide), String.empty_append, baseName?, segments_of_isName h]
    rfl
  -- the slash before the name is there, or it is written
  cases hopen : isOpen directory with
  | true =>
    rw [isOpen, Bool.or_eq_true, List.isEmpty_iff, beq_iff_eq] at hopen
    obtain ⟨before, hbefore⟩ := List.getLast?_eq_some_iff.mp (hopen.resolve_left empty)
    rw [if_pos rfl]
    refine hslash before ?_
    rw [String.toList_append, hbefore, List.append_assoc, List.singleton_append]
  | false =>
    rw [if_neg (by decide)]
    refine hslash directory.toList ?_
    have hone : "/".toList = ['/'] := by decide
    rw [String.toList_append, String.toList_append, hone, List.append_assoc, List.singleton_append]

end Path

/-! ### The stylesheet of a page -/

/-- **A page finds its stylesheet exactly when its title has no number sign and no escape.** Whatever
the title is, a reader of the page finds one address for the stylesheet, and the stylesheet stands
beside the page. The address, without its entities and taken for a reference, names that file unless a
number sign cuts it short or an escape is read as something else. -/
theorem stylesheet_found_iff (reader : EntityReader) (body title directory : String) :
    ∃ href, Template.stylesheetHref? (completePage body (stylesheetName title) title).toList = some href
      ∧ Path.baseName? (PagePaths.of title directory).css = some (stylesheetName title)
      ∧ (∀ storage : Storage, storage.place (PagePaths.of title directory).css
          = (storage.place (PagePaths.of title directory).html).dropLast ++ [stylesheetName title])
      ∧ (some (String.ofList (referencePath (reader.read href)))
            = Path.baseName? (PagePaths.of title directory).css
          ↔ '#' ∉ title.toList ∧ ¬ Percent.HasEscape title.toList) := by
  -- the stylesheet is named after the title
  have hbase : Path.baseName? (PagePaths.of title directory).css = some (stylesheetName title) := by
    rw [PagePaths.of_css]
    exact Path.baseName?_join (Path.isName_of_ending (by decide) (by decide)) _
  refine ⟨_, Template.stylesheetHref?_completePage body (stylesheetName title) title, hbase,
    fun storage => ?_, ?_⟩
  -- both files are in one directory
  · rw [Storage.place_css, Storage.place_html, List.dropLast_concat]
    rfl
  -- the address is read as the name, up to what ends a path
  · rw [hbase, reader.read_escapeAttribute, Option.some_inj, ← referencePath_stylesheetName_iff,
      ← String.toList_inj, String.toList_ofList]

/-- A number sign in a title: the reader looks for a file without an ending. -/
theorem numberedPage_not_found :
    Template.stylesheetHref? (completePage "" (stylesheetName "Page #1") "Page #1").toList
        = some "Page_#1.css".toList
      ∧ Path.baseName? (PagePaths.of "Page #1" "out").css = some "Page_#1.css"
      ∧ referencePath (EntityReader.ofFive.read "Page_#1.css".toList) = "Page_".toList
      ∧ "Page_" ≠ "Page_#1.css" := by
  refine ⟨?_, by decide, by decide, by decide⟩
  rw [Template.stylesheetHref?_completePage]
  decide

end Mockup
