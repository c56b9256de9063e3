import Mathlib.Data.List.Basic
import Mockup.Command.Storage
import Mockup.Page.File
import Mockup.Proofs.Outcome
import Mockup.Proofs.Text.Trim

/-!
# The files of a page

A page is written as two files in a directory of their own. This module says where the two paths
lead and what the storage is when both are written.

* `Storage.place_join` — a name below a directory is one step further than the directory;
* `Storage.Saves` — **a page is written**: the directory is made, then the page and its stylesheet
  are written in it;
* `Storage.Saves.html`, `Storage.Saves.css` — **then the two files hold what was written**, for the
  second is not written over the first;
* `Storage.Saves.written_eq` — what is on record as written depends only on what was before, and
  not on the other files and directories.
-/

namespace Mockup

/-! ### Names of files -/

namespace FileName

/-- Joining blanks brings in nothing but underscores. -/
theorem mem_of_mem_joinBlanks {c : Char} {inRun : Bool} {cs : List Char}
    (h : c ∈ joinBlanks inRun cs) : c = '_' ∨ c ∈ cs := by
  induction cs generalizing inRun with
  | nil => cases h
  | cons d rest ih =>
    rw [joinBlanks] at h
    split at h
    -- a blank leaves one underscore for the run it stands in
    · split at h
      · exact (ih h).imp_right (List.mem_cons_of_mem _)
      · rcases List.mem_cons.mp h with h | h
        · exact .inl h
        · exact (ih h).imp_right (List.mem_cons_of_mem _)
    · rcases List.mem_cons.mp h with rfl | h
      · exact .inr List.mem_cons_self
      · exact (ih h).imp_right (List.mem_cons_of_mem _)

/-- **No file name has a forbidden character.** -/
theorem not_isForbidden_of_mem {title : String} {c : Char} (h : c ∈ (ofTitle title).toList) :
    -- a forbidden character is replaced by one that is allowed
    isForbidden c = false := by
  have hreplaced (d : Char) : isForbidden (if isForbidden d then '_' else d) = false := by
    split
    · decide
    · rename_i allowed
      exact eq_false_of_ne_true allowed
  rw [ofTitle] at h
  split at h
  · -- the name of a file without a name
    have hfallback : (fallback.toList.all fun c => !isForbidden c) = true := by decide
    simpa using List.all_eq_true.mp hfallback c h
  -- the replaced title, joined and trimmed
  · rw [String.toList_ofList] at h
    rcases mem_of_mem_joinBlanks (Text.mem_of_mem_trimBoth h) with rfl | h
    · decide
    · obtain ⟨d, -, rfl⟩ := List.mem_map.mp h
      exact hreplaced d

end FileName

/-! ### Paths -/

namespace Path

/-- **The name of a file or a directory**, which leads one step further. -/
structure IsName (name : String) : Prop where
  slash : '/' ∉ name.toList
  ne_empty : name ≠ ""
  ne_self : name ≠ "."
  ne_parent : name ≠ ".."

/-- A file name with an ending is a name. -/
theorem isName_of_ending {title ending : String} (slash : '/' ∉ ending.toList)
    (long : 2 < ending.toList.length) : IsName (FileName.ofTitle title ++ ending) := by
  have hlength : 2 < (FileName.ofTitle title ++ ending).toList.length := by
    rw [String.toList_append, List.length_append]
    omega
  -- the slash is looked for on both sides, and the three other names are too short
  refine ⟨?_, ?_, ?_, ?_⟩
  · rw [String.toList_append]
    intro h
    rcases List.mem_append.mp h with h | h
    · exact absurd (FileName.not_isForbidden_of_mem h) (by decide)
    · exact slash h
  all_goals
    intro h
    rw [h] at hlength
    revert hlength
    decide

variable {directory name : String}

theorem not_isAbsolute_of_isName (h : IsName name) : isAbsolute name = false := by
  rw [isAbsolute]
  cases hname : name.toList with
  | nil => rfl
  | cons c rest =>
    refine beq_eq_false_iff_ne.mpr fun e => ?_
    obtain rfl := Option.some.inj e
    exact h.slash (hname ▸ List.mem_cons_self)

/-- A name is one segment. -/
theorem segments_of_isName (h : IsName name) : segments name = [name] := by
  rw [segments, List.splitOn_eq_singleton h.slash, List.map_singleton, String.ofList_toList]

/-- The segments on both sides of a slash. -/
theorem segments_of_toList_eq {path : String} {before after : List Char}
    (h : path.toList = before ++ '/' :: after) :
    segments path = segments (.ofList before) ++ segments (.ofList after) := by
  rw [segments, h, List.splitOn_append_cons_self, List.map_append, segments, segments,
    String.toList_ofList, String.toList_ofList]

/-- What comes after a path does not change where it begins. -/
theorem isAbsolute_append (h : directory.toList ≠ []) (more : String) :
    isAbsolute (directory ++ more) = isAbsolute directory := by
  rw [isAbsolute, isAbsolute, String.toList_append, List.head?_append_of_ne_nil _ h]

end Path

/-! ### Places -/

namespace Storage

open Mockup.Path

variable {storage : Storage} {directory name : String}

/-- A name leads one step further. -/
theorem next_of_isName (h : IsName name) (place : List String) : next place name = place ++ [name] := by
  have hidle : isIdle name = false := by simp [isIdle, h.ne_empty, h.ne_self]
  rw [next, hidle, if_neg (by decide), if_neg h.ne_parent]

/-- A path that goes on with a name leads one step further. -/
theorem place_of_segments {path : String} (h : IsName name)
    (absolute : isAbsolute path = isAbsolute directory)
    (hsegments : segments path = segments directory ++ [name]) :
    storage.place path = storage.place directory ++ [name] := by
  rw [place, start, absolute, hsegments, List.foldl_append, List.foldl_cons, List.foldl_nil,
    next_of_isName h, ← start, ← place]

/-- A path that ends with a slash leads where it leads without it. -/
theorem place_of_slash {path : String} {before : List Char} (h : path.toList = before ++ ['/']) :
    storage.place path = (segments (.ofList before)).foldl next (storage.start path) := by
  have hend : segments (.ofList []) = [""] := by decide
  have hidle (place : List String) : next place "" = place := if_pos (by decide)
  rw [place, segments_of_toList_eq h, hend, List.foldl_append, List.foldl_cons, List.foldl_nil, hidle]

/-- **A name below a directory** is one step further than the directory. -/
theorem place_join (h : IsName name) (directory : String) :
    storage.place (join directory name) = storage.place directory ++ [name] := by
  -- the name is not absolute, so the directory stays in front
  rw [join, not_isAbsolute_of_isName h, if_neg (by decide)]
  by_cases empty : directory.toList = []
  · -- the name stands alone
    obtain rfl : directory = "" := String.toList_inj.mp (empty.trans (by decide))
    have hhome : storage.place "" = storage.home := rfl
    rw [if_pos (by decide), String.empty_append, hhome, place, segments_of_isName h, start,
      not_isAbsolute_of_isName h, if_neg (by decide), List.foldl_cons, List.foldl_nil,
      next_of_isName h]
  cases hopen : isOpen directory with
  | true =>
    -- the slash before the name is there
    rw [isOpen, Bool.or_eq_true, List.isEmpty_iff, beq_iff_eq] at hopen
    have hlast := hopen.resolve_left empty
    obtain ⟨before, hbefore⟩ := List.getLast?_eq_some_iff.mp hlast
    have hpath : (directory ++ name).toList = before ++ '/' :: name.toList := by
      rw [String.toList_append, hbefore, List.append_assoc, List.singleton_append]
    rw [if_pos rfl, place_of_slash hbefore, place, segments_of_toList_eq hpath, String.ofList_toList,
      segments_of_isName h, List.foldl_append, List.foldl_cons, List.foldl_nil, next_of_isName h,
      start, isAbsolute_append empty, ← start]
  | false =>
    have hpath : (directory ++ "/" ++ name).toList = directory.toList ++ '/' :: name.toList := by
      have hslash : "/".toList = ['/'] := by decide
      rw [String.toList_append, String.toList_append, hslash, List.append_assoc,
        List.singleton_append]
    -- the two paths differ by the last segment alone
    have hsegments : segments (directory ++ "/" ++ name) = segments directory ++ [name] := by
      rw [segments_of_toList_eq hpath, String.ofList_toList, String.ofList_toList,
        segments_of_isName h]
    have habsolute : isAbsolute (directory ++ "/" ++ name) = isAbsolute directory := by
      rw [String.append_assoc, isAbsolute_append empty]
    rw [if_neg (by decide), place_of_segments h habsolute hsegments]

/-! ### Writing -/

/-- The record of written files after one more file. -/
def overwrite (place : List String) (text : String) (written : List StoredFile) : List StoredFile :=
  written.filter (·.place ≠ place) ++ [⟨place, some text⟩]

/-- The place of a path depends only on the directory that the command runs in. -/
theorem place_congr {first second : Storage} (h : first.home = second.home) (path : String) :
    first.place path = second.place path := by
  rw [place, place, start, start, h]

/-- **Making directories** writes no file. -/
theorem makeAlong_eq_ok {storage made : Storage} {place : List String} {length : Nat}
    {names : List String} (h : storage.makeAlong place length names = .ok made) :
    made.home = storage.home ∧ made.written = storage.written ∧ made.files = storage.files := by
  -- only the directories change on the way, so the walk goes on from a storage with the same files
  induction names generalizing storage place length with
  | nil =>
    obtain rfl := Except.ok.inj h
    exact ⟨rfl, rfl, rfl⟩
  | cons name rest ih =>
    rw [makeAlong] at h
    split at h
    -- an empty segment leads nowhere
    · exact ih h
    split at h
    · cases h
    split at h
    · cases h
    split at h
    · cases h
    · split at h
      · cases h
      · exact ih h
    -- the directory is there already
    · exact ih h
    · split at h
      · cases h
      · -- the storage has one more directory now
        obtain ⟨hhome, hwritten, hfiles⟩ := ih h
        exact ⟨hhome, hwritten, hfiles⟩

/-- **Writing a file** puts it on record, in place of one that was written there before. -/
theorem write_eq_ok {storage after : Storage} {path text : String}
    (h : storage.write path text = .ok after) :
    after = { storage with written := overwrite (storage.place path) text storage.written } := by
  rw [write] at h
  split at h
  · cases h
  split at h
  · cases h
  · split at h
    · cases h
    · exact (Except.ok.inj h).symm

/-- A name that leads to nothing becomes a directory. -/
theorem makeAlong_new {storage : Storage} {place : List String} {length : Nat} {name : String}
    (h : IsName name) (usable : isUnusable name = false) (short : name.utf8ByteSize ≤ longestName)
    (shortPath : length + name.utf8ByteSize ≤ longestPath)
    (directory : storage.entry place = .directory)
    (absent : storage.entry (place ++ [name]) = .absent) (rest : List String) :
    storage.makeAlong place length (name :: rest)
      = makeAlong { storage with directories := (place ++ [name]) :: storage.directories }
          (place ++ [name]) (length + name.utf8ByteSize + 1) rest := by
  -- the limits of a path and of a name are not reached
  have hpath : ¬ longestPath < length + name.utf8ByteSize := by omega
  have hname : ¬ longestName < name.utf8ByteSize := by omega
  rw [makeAlong, if_neg h.ne_empty, usable, if_neg (by decide), decide_eq_false hpath,
    Bool.and_false, if_neg (by decide), next_of_isName h, directory, absent]
  dsimp only
  rw [if_neg hname]

/-- A file that is not there is written. -/
theorem write_new {storage : Storage} {path : String} (text : String)
    (shortPath : path.utf8ByteSize ≤ longestPath)
    (short : ((storage.place path).getLast?.getD "").utf8ByteSize ≤ longestName)
    (absent : storage.entry (storage.place path) = .absent) :
    storage.write path text
      = .ok { storage with written := overwrite (storage.place path) text storage.written } := by
  have hpath : ¬ longestPath < path.utf8ByteSize := by omega
  have hname : ¬ longestName < ((storage.place path).getLast?.getD "").utf8ByteSize := by omega
  rw [write, if_neg hpath, absent]
  dsimp only
  rw [if_neg hname, overwrite]

/-- The file that was written last at a place is the one there. -/
theorem find?_overwrite (place : List String) (text : String) (written files : List StoredFile) :
    (overwrite place text written ++ files).find? (·.place = place) = some ⟨place, some text⟩ := by
  have hothers : (written.filter (·.place ≠ place)).find? (·.place = place) = none := by
    refine List.find?_eq_none.mpr fun file hfile => ?_
    simpa using (List.mem_filter.mp hfile).2
  rw [overwrite, List.append_assoc, List.find?_append, hothers, Option.none_or,
    List.singleton_append, List.find?_cons_of_pos (by simp)]

/-- **Frame.** The files at other places stay. -/
theorem find?_overwrite_of_ne {place other : List String} (h : place ≠ other) (text : String)
    (written files : List StoredFile) :
    (overwrite place text written ++ files).find? (·.place = other)
      = (written ++ files).find? (·.place = other) := by
  have hothers : (written.filter (·.place ≠ place)).find? (·.place = other)
      = written.find? (·.place = other) := by
    rw [List.find?_filter]
    refine congrArg (fun test => written.find? test) (funext fun file => ?_)
    by_cases hfile : file.place = other
    · simp [hfile, Ne.symm h]
    · simp [hfile]
  rw [overwrite, List.append_assoc, List.find?_append, hothers, List.singleton_append,
    List.find?_cons_of_neg (by simpa using h), List.find?_append]

/-- A file that was written is there. -/
theorem entry_of_write {storage after : Storage} {path text : String}
    (h : storage.write path text = .ok after) :
    after.entry (storage.place path) = .file (some text) := by
  obtain rfl := write_eq_ok h
  rw [entry, find?_overwrite]

/-- A file at another place stays when a file is written. -/
theorem entry_of_write_of_ne {storage after : Storage} {path text : String}
    (h : storage.write path text = .ok after) {place : List String} (hne : storage.place path ≠ place)
    {content : Option String} (hfile : storage.entry place = .file content) :
    after.entry place = .file content := by
  -- the write put one file on top, which is found only at its own place
  obtain rfl := write_eq_ok h
  rw [entry] at hfile ⊢
  rw [find?_overwrite_of_ne hne]
  cases hfound : (storage.written ++ storage.files).find? (·.place = place) with
  | some file =>
    rw [hfound] at hfile
    exact hfile
  | none =>
    rw [hfound] at hfile
    -- what was no written file is a directory or absent
    dsimp only at hfile
    split at hfile
    · cases hfile
    · cases hfile

/-! ### The files of a page -/

/-- **A page is written**: its directory is made, then the page is written, and then its
stylesheet. -/
def Saves (storage : Storage) (page : Conversion) (title output : String) (after : Storage) : Prop :=
  ∃ made half,
    storage.makeDirectories (PagePaths.of title output).directory = .ok made
    ∧ made.write (PagePaths.of title output).html
        (completePage page.html (stylesheetName title) title) = .ok half
    ∧ half.write (PagePaths.of title output).css page.css = .ok after

/-- The two files of a page stand in the directory of the page. -/
theorem place_html (storage : Storage) (title output : String) :
    storage.place (PagePaths.of title output).html
      = storage.place (PagePaths.of title output).directory ++ [FileName.ofTitle title ++ ".html"] := by
  have hname : IsName (FileName.ofTitle title ++ ".html") := isName_of_ending (by decide) (by decide)
  rw [PagePaths.of_html, place_join hname]

theorem place_css (storage : Storage) (title output : String) :
    storage.place (PagePaths.of title output).css
      = storage.place (PagePaths.of title output).directory ++ [FileName.ofTitle title ++ ".css"] := by
  have hname : IsName (FileName.ofTitle title ++ ".css") := isName_of_ending (by decide) (by decide)
  rw [PagePaths.of_css, place_join hname]

/-- **The two files of a page are two.** -/
theorem place_css_ne_html (storage : Storage) (title output : String) :
    storage.place (PagePaths.of title output).css ≠ storage.place (PagePaths.of title output).html := by
  rw [place_html, place_css]
  intro h
  have hname := congrArg String.toList (List.singleton_inj.mp (List.append_cancel_left h))
  rw [String.toList_append, String.toList_append] at hname
  exact absurd (List.append_cancel_left hname) (by decide)

namespace Saves

variable {storage after : Storage} {page : Conversion} {title output : String}

/-- What is on record as written when a page is written. -/
theorem written_eq (h : storage.Saves page title output after) :
    after.written = overwrite (storage.place (PagePaths.of title output).css) page.css
      (overwrite (storage.place (PagePaths.of title output).html)
        (completePage page.html (stylesheetName title) title) storage.written) := by
  obtain ⟨made, half, hmade, hhtml, hcss⟩ := h
  obtain ⟨hhome, hwritten, -⟩ := makeAlong_eq_ok hmade
  obtain rfl := write_eq_ok hcss
  obtain rfl := write_eq_ok hhtml
  -- a path leads to the same place at each step, for the command stays where it runs
  have hplace (written : List StoredFile) (path : String) :
      ({ made with written } : Storage).place path = storage.place path :=
    place_congr hhome path
  rw [hplace, hplace, hwritten]

/-- **The stylesheet is there.** -/
theorem css (h : storage.Saves page title output after) :
    after.entry (after.place (PagePaths.of title output).css) = .file (some page.css) := by
  obtain ⟨made, half, hmade, hhtml, hcss⟩ := h
  have hplace : after.place (PagePaths.of title output).css
      = half.place (PagePaths.of title output).css := by
    obtain rfl := write_eq_ok hcss
    rfl
  rw [hplace, entry_of_write hcss]

/-- **The page is there**, for the stylesheet is at another place. -/
theorem html (h : storage.Saves page title output after) :
    after.entry (after.place (PagePaths.of title output).html)
      = .file (some (completePage page.html (stylesheetName title) title)) := by
  obtain ⟨made, half, hmade, hhtml, hcss⟩ := h
  -- places are counted from the home, which no write changes
  have hhalf : made.place (PagePaths.of title output).html
      = half.place (PagePaths.of title output).html := by
    obtain rfl := write_eq_ok hhtml
    rfl
  have hafter : after.place (PagePaths.of title output).html
      = half.place (PagePaths.of title output).html := by
    obtain rfl := write_eq_ok hcss
    rfl
  have hentry := entry_of_write hhtml
  rw [hhalf] at hentry
  -- the page was written first, and the stylesheet lands at another place
  rw [hafter]
  exact entry_of_write_of_ne hcss (place_css_ne_html half title output) hentry

end Saves

end Storage

end Mockup
