import Mockup.Proofs.Command.Storage

/-!
# Names of files

The two files of a page and their directory have one name, which is made from the title of the page.
A title may be any text, so the name has to be made safe: it must not lead out of the directory that
was chosen, and it must be the same name when it is made safe again.

* `FileName.IsSafe` — **names that are safe for files**;
* `FileName.ofTitle_isSafe`, `FileName.ofTitle_eq_self_iff` — **every name is safe, and a title is its
  own name exactly when it is safe**;
* `FileName.infix_ofTitle_iff` — what needs no replacement stands in the name as in the title;
* `files_inside_directory` — **the two files are two steps below the directory that was chosen.**

The steps are taken one after the other: the replacements bring in nothing but underscores, and
trimming brings in nothing. So what one step keeps out the next ones do not bring back.
-/

namespace Mockup

namespace FileName

open Text

/-- **Names that are safe for files**: there is something of them, no blank and no character with a
meaning in a path, and they neither begin nor end with a point or an underscore. -/
structure IsSafe (name : String) : Prop where
  ne_empty : name ≠ ""
  blank : ∀ c ∈ name.toList, isBlank c = false
  forbidden : ∀ c ∈ "<>:\"/\\|?*".toList, c ∉ name.toList
  first : ∀ c ∈ name.toList.head?, c ≠ '.' ∧ c ≠ '_'
  last : ∀ c ∈ name.toList.getLast?, c ≠ '.' ∧ c ≠ '_'

/-- What a file name leaves out at its ends. -/
theorem isEdge_eq_false_iff {c : Char} : isEdge c = false ↔ c ≠ '.' ∧ c ≠ '_' := by
  rw [isEdge, Bool.or_eq_false_iff, beq_eq_false_iff_ne, beq_eq_false_iff_ne]

theorem isForbidden_eq_true_iff {c : Char} : isForbidden c = true ↔ c ∈ "<>:\"/\\|?*".toList :=
  List.contains_iff_mem

/-! ### The steps -/

/-- An underscore in place of a forbidden character. -/
def replaced (cs : List Char) : List Char := cs.map fun c => if isForbidden c then '_' else c

/-- What is left of a title. -/
def remainder (title : String) : List Char :=
  trimBoth isEdge (joinBlanks false (replaced title.toList))

/-- The name is what is left of the title, if anything is. -/
theorem toList_ofTitle (title : String) :
    (ofTitle title).toList = if (remainder title).isEmpty then fallback.toList else remainder title := by
  rw [ofTitle]
  change (if (remainder title).isEmpty then fallback else .ofList (remainder title)).toList = _
  split
  · rfl
  · exact String.toList_ofList

theorem replaced_eq_self {cs : List Char} (h : ∀ c ∈ cs, isForbidden c = false) : replaced cs = cs := by
  refine (List.map_congr_left fun c hc => ?_).trans (List.map_id cs)
  rw [h c hc, if_neg (by decide)]
  rfl

/-- When blanks are joined, none is left. -/
theorem isBlank_of_mem_joinBlanks {c : Char} {inRun : Bool} {cs : List Char}
    (h : c ∈ joinBlanks inRun cs) : isBlank c = false := by
  induction cs generalizing inRun with
  | nil => cases h
  | cons d rest ih =>
    rw [joinBlanks] at h
    split at h
    -- a later blank of a run leaves nothing
    · split at h
      · exact ih h
      -- the first one leaves an underscore
      · rcases List.mem_cons.mp h with rfl | h
        · decide
        · exact ih h
    · rename_i hd
      -- what is kept is no blank
      rcases List.mem_cons.mp h with rfl | h
      · exact eq_false_of_ne_true hd
      · exact ih h

/-- What has no blanks stands as it is, and a run of blanks ends before it. -/
theorem joinBlanks_append {part : List Char} (h : ∀ c ∈ part, isBlank c = false) (ne : part ≠ [])
    (inRun : Bool) (rest : List Char) :
    joinBlanks inRun (part ++ rest) = part ++ joinBlanks false rest := by
  induction part generalizing inRun with
  | nil => exact absurd rfl ne
  | cons c part ih =>
    obtain ⟨hc, hpart⟩ := List.forall_mem_cons.mp h
    rw [List.cons_append, joinBlanks, if_neg (by simp [hc])]
    by_cases hnil : part = []
    · subst hnil
      rfl
    · rw [ih hpart hnil, List.cons_append]

theorem joinBlanks_eq_self {cs : List Char} (h : ∀ c ∈ cs, isBlank c = false) :
    joinBlanks false cs = cs := by
  by_cases hnil : cs = []
  · subst hnil
    rfl
  · have hjoin := joinBlanks_append h hnil false []
    rwa [List.append_nil, joinBlanks, List.append_nil] at hjoin

/-! ### Safe names -/

/-- The name of a page without a name is safe. -/
theorem fallback_isSafe : IsSafe fallback where
  ne_empty := by decide
  blank := by
    have unblank : Unblank fallback.toList := by decide
    exact unblank
  forbidden c hc hmem := by
    have allowed : fallback.toList.all (!isForbidden ·) = true := by decide
    have hallowed := List.all_eq_true.mp allowed c hmem
    -- the fallback has no forbidden character
    rw [isForbidden_eq_true_iff.mpr hc] at hallowed
    cases hallowed
  first := by
    rintro c ⟨⟩
    decide
  last := by
    rintro c ⟨⟩
    decide

/-- **Every name is safe.** -/
theorem ofTitle_isSafe (title : String) : IsSafe (ofTitle title) := by
  cases hnil : (remainder title).isEmpty with
  | true =>
    have hname : ofTitle title = fallback := by
      rw [← String.toList_inj, toList_ofTitle, hnil, if_pos rfl]
    rw [hname]
    exact fallback_isSafe
  | false =>
    have hname : (ofTitle title).toList = remainder title := by
      rw [toList_ofTitle, hnil, if_neg (by decide)]
    refine ⟨?_, ?_, ?_, ?_, ?_⟩
    · intro empty
      rw [empty] at hname
      rw [← hname] at hnil
      exact absurd hnil (by decide)
    · intro c hc
      -- the blanks were joined before the trimming
      rw [hname] at hc
      exact isBlank_of_mem_joinBlanks (mem_of_mem_trimBoth hc)
    · intro c hc hmem
      -- the forbidden characters were replaced before that
      cases (not_isForbidden_of_mem hmem).symm.trans (isForbidden_eq_true_iff.mpr hc)
    · intro c hc
      rw [hname] at hc
      -- trimming ends at a character that is no edge, on the left
      exact isEdge_eq_false_iff.mp (head?_trimBoth isEdge _ c hc)
    · intro c hc
      rw [hname] at hc
      -- and on the right
      exact isEdge_eq_false_iff.mp (getLast?_trimBoth isEdge _ c hc)

/-- **A title is its own name exactly when it is safe.** -/
theorem ofTitle_eq_self_iff {title : String} : ofTitle title = title ↔ IsSafe title := by
  refine ⟨fun h => h ▸ ofTitle_isSafe title, fun safe => ?_⟩
  have allowed : ∀ c ∈ title.toList, isForbidden c = false := fun c hc =>
    eq_false_of_ne_true fun h => safe.forbidden c (isForbidden_eq_true_iff.mp h) hc
  have hremainder : remainder title = title.toList := by
    rw [remainder, replaced_eq_self allowed, joinBlanks_eq_self safe.blank]
    exact trimBoth_eq_self (fun c hc => isEdge_eq_false_iff.mpr (safe.first c hc))
      fun c hc => isEdge_eq_false_iff.mpr (safe.last c hc)
  have hne : title.toList ≠ [] := fun h => safe.ne_empty (String.toList_inj.mp (h.trans (by decide)))
  rw [← String.toList_inj, toList_ofTitle, hremainder, if_neg (by simpa using hne)]

/-- Blanks and slashes around a name of two words. -/
example : ofTitle " ../Card  2024 " = "Card_2024" := by decide

/-- A safe name is one step of a path. -/
theorem IsSafe.isName {name : String} (safe : IsSafe name) : Path.IsName name where
  slash := safe.forbidden '/' (by decide)
  ne_empty := safe.ne_empty
  ne_self := by
    rintro rfl
    exact (safe.first '.' rfl).1 rfl
  ne_parent := by
    rintro rfl
    exact (safe.first '.' rfl).1 rfl

/-! ### What needs no replacement -/

/-- Whether a file name takes over a character wherever it stands. -/
def isPlain (c : Char) : Bool := !isForbidden c && !isBlank c && !isEdge c

theorem isPlain_eq_true_iff {c : Char} :
    isPlain c = true ↔ isForbidden c = false ∧ isBlank c = false ∧ isEdge c = false := by
  simp [isPlain, and_assoc]

section Infix

variable {part cs : List Char}

/-- An underscore is none of the characters that are taken over. -/
theorem underscore_notMem (plain : ∀ c ∈ part, isPlain c = true) : '_' ∉ part := fun h =>
  absurd (plain '_' h) (by decide)

theorem infix_replaced_iff (plain : ∀ c ∈ part, isPlain c = true) :
    part <:+: replaced cs ↔ part <:+: cs := by
  -- no character of the part is forbidden
  have hself : replaced part = part :=
    replaced_eq_self fun c hc => (isPlain_eq_true_iff.mp (plain c hc)).1
  rw [replaced, List.infix_map_iff]
  constructor
  · rintro ⟨source, hinfix, hpart⟩
    -- nothing in the part is an underscore, so nothing in its source was replaced
    have hsource : replaced source = source := by
      refine replaced_eq_self fun c hc => eq_false_of_ne_true fun forbidden => ?_
      refine underscore_notMem plain ?_
      rw [hpart]
      exact List.mem_map.mpr ⟨c, hc, if_pos forbidden⟩
    exact (hpart.trans hsource) ▸ hinfix
  · exact fun h => ⟨part, h, hself.symm⟩

theorem prefix_of_prefix_joinBlanks (plain : ∀ c ∈ part, isPlain c = true)
    (h : part <+: joinBlanks false cs) : part <+: cs := by
  induction cs generalizing part with
  | nil => exact h
  | cons d rest ih =>
    cases part with
    | nil => exact List.nil_prefix
    | cons c part =>
      rw [joinBlanks] at h
      split at h
      · -- an underscore stands in place of the blank
        rw [if_neg (by decide)] at h
        obtain ⟨rfl, -⟩ := List.cons_prefix_cons.mp h
        exact absurd List.mem_cons_self (underscore_notMem plain)
      -- the character is kept, and the part goes on after it
      · obtain ⟨rfl, hpart⟩ := List.cons_prefix_cons.mp h
        have hrest := ih (fun c hc => plain c (List.mem_cons_of_mem _ hc)) hpart
        exact List.cons_prefix_cons.mpr ⟨rfl, hrest⟩

theorem infix_joinBlanks_iff (plain : ∀ c ∈ part, isPlain c = true) (ne : part ≠ [])
    {inRun : Bool} : part <:+: joinBlanks inRun cs ↔ part <:+: cs := by
  constructor
  · intro h
    induction cs generalizing inRun with
    | nil => exact h
    | cons d rest ih =>
      rw [joinBlanks] at h
      split at h
      -- the blank itself is not in the part
      · refine List.infix_cons ?_
        split at h
        · exact ih h
        · rcases List.infix_cons_iff.mp h with h | h
          · -- a part that begins here begins with an underscore
            obtain ⟨c, part, rfl⟩ := List.exists_cons_of_ne_nil ne
            obtain ⟨rfl, -⟩ := List.cons_prefix_cons.mp h
            exact absurd List.mem_cons_self (underscore_notMem plain)
          · exact ih h
      · rename_i hd
        rcases List.infix_cons_iff.mp h with h | h
        · refine (prefix_of_prefix_joinBlanks plain ?_).isInfix
          rwa [joinBlanks, if_neg hd]
        · exact List.infix_cons (ih h)
  · rintro ⟨front, back, rfl⟩
    have blank : ∀ c ∈ part, isBlank c = false := fun c hc => (isPlain_eq_true_iff.mp (plain c hc)).2.1
    induction front generalizing inRun with
    -- the part stands at the front, and joining leaves it alone
    | nil =>
      rw [List.nil_append, joinBlanks_append blank ne]
      exact (List.prefix_append _ _).isInfix
    | cons d front ih =>
      -- one more character before it, kept or joined
      rw [List.cons_append, List.cons_append, joinBlanks]
      split
      · split
        · exact ih
        · exact List.infix_cons ih
      · exact List.infix_cons ih

end Infix

/-- **What needs no replacement stands in the name as it stands in the title**, and nothing of that
kind is brought in, unless it is a part of the name for pages without one. -/
theorem infix_ofTitle_iff {title : String} {part : List Char} (plain : ∀ c ∈ part, isPlain c = true)
    (ne : part ≠ []) (own : ¬ part <:+: fallback.toList) :
    part <:+: (ofTitle title).toList ↔ part <:+: title.toList := by
  have kept : ∀ c ∈ part, isEdge c = false := fun c hc => (isPlain_eq_true_iff.mp (plain c hc)).2.2
  have hremainder : part <:+: remainder title ↔ part <:+: title.toList := by
    rw [remainder, infix_trimBoth_iff kept ne, infix_joinBlanks_iff plain ne, infix_replaced_iff plain]
  rw [toList_ofTitle, ← hremainder]
  split
  · rename_i hnil
    rw [List.isEmpty_iff.mp hnil, List.infix_nil]
    exact ⟨fun h => absurd h own, fun h => absurd h ne⟩
  · rfl

end FileName

/-! ### The paths of a page -/

/-- **The files of a page are two steps below the directory that was chosen.** Whatever the title is,
its name is safe and is its own name, and it is neither nothing nor the name of a directory itself or
of the one above. The page and its stylesheet have different paths, both in a directory of that name
below the one that was chosen, and wherever these are followed from, they lead two steps further. -/
theorem files_inside_directory (title directory : String) :
    FileName.IsSafe (FileName.ofTitle title)
    ∧ FileName.ofTitle (FileName.ofTitle title) = FileName.ofTitle title
    ∧ ∃ name, name = FileName.ofTitle title ∧ Path.IsName name ∧ Path.segments name = [name]
      ∧ (PagePaths.of title directory).html = Path.join (Path.join directory name) (name ++ ".html")
      ∧ (PagePaths.of title directory).css = Path.join (Path.join directory name) (name ++ ".css")
      ∧ (PagePaths.of title directory).html ≠ (PagePaths.of title directory).css
      ∧ ∀ storage : Storage,
        storage.place (PagePaths.of title directory).html
            = storage.place directory ++ [name, name ++ ".html"]
          ∧ storage.place (PagePaths.of title directory).css
            = storage.place directory ++ [name, name ++ ".css"] := by
  have safe := FileName.ofTitle_isSafe title
  -- the directory of the page is the one named after the title
  have hdirectory (storage : Storage) : storage.place (PagePaths.of title directory).directory
      = storage.place directory ++ [FileName.ofTitle title] := by
    rw [PagePaths.of_directory, Storage.place_join safe.isName]
  refine ⟨safe, FileName.ofTitle_eq_self_iff.mpr safe, _, rfl, safe.isName,
    Path.segments_of_isName safe.isName, ?_, ?_, ?_, fun storage => ⟨?_, ?_⟩⟩
  · rw [PagePaths.of_html, PagePaths.of_directory]
  · rw [PagePaths.of_css, PagePaths.of_directory]
  -- the two files have different places in every storage, so different paths
  · intro same
    exact Storage.place_css_ne_html {} title directory (congrArg _ same.symm)
  · rw [Storage.place_html, hdirectory, List.append_assoc, List.singleton_append]
  · rw [Storage.place_css, hdirectory, List.append_assoc, List.singleton_append]

end Mockup
