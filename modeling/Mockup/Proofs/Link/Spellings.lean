import Mockup.Proofs.Link.Query
import Mockup.Proofs.Link.Shell

/-!
# The spellings of a link

A link to a node of a design can be written in many ways. The path has one of two words and may have a
title; the node is named by one of two parameters of the query, among others, or in the fragment; the
separators in its name may be replaced or escaped; and the link may have been escaped for a shell and
have blanks around it. This module says that all of these are read alike.

* `NodeId`, `Writing` — a node, and **the ways to write its name**;
* `DesignPath` — the path of a design;
* `NamesNode` — **the ends of links that name a node**;
* `DesignPath.parse_eq` — the target of a link to a design;
* `DesignPath.parse_of_query` — **a node that is named in the query is found**;
* `spelling_parses` — **every spelling is read as the key and the node.**

The reader first leaves out the blanks around the link, then undoes the escapes of the whole text, and
then takes it apart. A fragment may hold anything, so what each step leaves of it is not known; it
remains a fragment, which is all that matters (`IsFragment`).
-/

namespace Mockup.Link

open Text

/-! ### Nodes -/

/-- A character of the name of a node. -/
def isIdChar (c : Char) : Bool := c.isAlphanum || c == ':' || c == ';'

/-- **A node**, by its name: letters and digits with colons and semicolons. -/
structure NodeId where
  text : String
  ne_nil : text.toList ≠ []
  chars : text.toList.all isIdChar = true

/-- **The ways to write the name of a node**: a colon as it is, as a hyphen or escaped, and a semicolon
as it is or escaped. -/
inductive Writing : List Char → List Char → Prop
  | nil : Writing [] []
  | plain {c : Char} (h : c.isAlphanum = true) {name written : List Char}
    (rest : Writing name written) : Writing (c :: name) (c :: written)
  | colon (sign : String) (h : sign ∈ [":", "-", "%3A"]) {name written : List Char}
    (rest : Writing name written) : Writing (':' :: name) (sign.toList ++ written)
  | semicolon (sign : String) (h : sign ∈ [";", "%3B"]) {name written : List Char}
    (rest : Writing name written) : Writing (';' :: name) (sign.toList ++ written)

/-! ### Paths -/

/-- A character of a title in a path. -/
def isSlugChar (c : Char) : Bool := c.isAlphanum || c == '_' || c == '-'

/-- **The path of a design**: a word, the key of the file, and perhaps a title. -/
structure DesignPath where
  word : String
  key : FileKey
  slug : Option String
  announces : word = "file" ∨ word = "design"
  slug_chars : ∀ text ∈ slug, text.toList.all isSlugChar = true

namespace DesignPath

/-- A title follows after a slash. -/
def slugPart (path : DesignPath) : List Char := (path.slug.map fun text => '/' :: text.toList).getD []

/-- What follows the first slash of a path. -/
def steps (path : DesignPath) : List Char :=
  path.word.toList ++ '/' :: (path.key.text.toList ++ path.slugPart)

/-- **The beginning of a link** to a design. -/
def link (path : DesignPath) : List Char := origin ++ '/' :: path.steps

end DesignPath

/-! ### Ends of links -/

/-- A parameter that is about something else. -/
def IsFurther (part : List Char) : Prop :=
  ∃ name value, part = name ++ '=' :: value ∧ (∀ c ∈ name, c.isAlphanum = true)
    ∧ (∀ c ∈ value, c.isAlphanum = true) ∧ name ≠ "node-id".toList ∧ name ≠ "id".toList

/-- A parameter of the second name, with whatever node. -/
def IsRival (part : List Char) : Prop :=
  ∃ name written, Writing name written ∧ part = "id".toList ++ '=' :: written

/-- Nothing, or a number sign and anything after it. -/
def IsFragment (cs : List Char) : Prop := ∀ c ∈ cs.head?, c = '#'

/-- **The ends of links that name a node**: by the first parameter, beside the second one and a fragment
that may name others; by the second parameter, when the first is not there; or in the fragment. Queries
may have further parameters and may be escaped for a shell. -/
inductive NamesNode (name : List Char) : List Char → Prop
  | byNodeId {before after : List (List Char)} {written query fragment : List Char}
    (writing : Writing name written) (others : ∀ part ∈ before ++ after, IsFurther part ∨ IsRival part)
    (escaped : ShellEscaped
      ('?' :: joined (before ++ ("node-id".toList ++ '=' :: written) :: after)) query)
    (rest : IsFragment fragment) : NamesNode name (query ++ fragment)
  | byId {before after : List (List Char)} {written query fragment : List Char}
    (writing : Writing name written) (others : ∀ part ∈ before ++ after, IsFurther part)
    (escaped : ShellEscaped ('?' :: joined (before ++ ("id".toList ++ '=' :: written) :: after)) query)
    (rest : IsFragment fragment) : NamesNode name (query ++ fragment)
  | inFragment {written : List Char} (writing : Writing name written) :
    NamesNode name ('#' :: ("node-id".toList ++ '=' :: written))

/-! ### Blanks -/

/-- What is dropped is blank. -/
theorem isDropped_of_not_isBlank {c : Char} (h : isBlank c = false) : isDropped c = false := by
  refine eq_false_of_ne_true fun hdropped => ?_
  rw [isDropped, Bool.or_eq_true, Bool.or_eq_true, beq_iff_eq, beq_iff_eq, beq_iff_eq] at hdropped
  rcases hdropped with (rfl | rfl) | rfl
  all_goals exact absurd h (by decide)

/-- A text without blanks has nothing that is dropped. -/
theorem filter_isDropped_of_unblank {cs : List Char} (h : Unblank cs) :
    cs.filter (!isDropped ·) = cs :=
  List.filter_eq_self.mpr fun c hc => by rw [isDropped_of_not_isBlank (h c hc), Bool.not_false]

theorem ShellEscaped.unblank {cs written : List Char} (h : ShellEscaped cs written)
    (unblank : Unblank cs) : Unblank written := fun c hc => by
  rcases h.mem hc with hmem | rfl
  · exact unblank c hmem
  · decide

theorem AllOrdinary.unblank_queryText {parameters : List (List Char × List Char)}
    (h : AllOrdinary parameters) : Unblank (queryText parameters) :=
  forall_mem_joined (by decide)
    (h.forall_mem_parameterText (fun _ hc => isBlank_of_isOrdinary hc) (by decide))

/-! ### Fragments -/

namespace IsFragment

variable {fragment : List Char}

theorem eq_nil_or (h : IsFragment fragment) : fragment = [] ∨ ∃ rest, fragment = '#' :: rest := by
  cases fragment with
  | nil => exact .inl rfl
  | cons c rest => exact .inr ⟨rest, by rw [h c rfl]⟩

theorem cons (rest : List Char) : IsFragment ('#' :: rest) := fun _ hc => (Option.some.inj hc).symm

/-- What is read of a fragment is one. -/
theorem decode (h : IsFragment fragment) : IsFragment (Percent.decode fragment) := by
  rcases h.eq_nil_or with rfl | ⟨rest, rfl⟩
  · exact nofun
  · rw [Percent.decode_cons_of_ne (by decide)]
    exact cons _

/-- A fragment has no backslash before it. -/
theorem of_shellEscaped (h : IsFragment fragment) {written : List Char}
    (escaped : ShellEscaped fragment written) : IsFragment written := by
  rcases h.eq_nil_or with rfl | ⟨rest, rfl⟩
  · cases escaped
    exact nofun
  · obtain ⟨_, rfl, -⟩ := escaped.cons_inv (by decide)
    exact cons _

theorem filter_isDropped (h : IsFragment fragment) : IsFragment (fragment.filter (!isDropped ·)) := by
  rcases h.eq_nil_or with rfl | ⟨rest, rfl⟩
  · exact nofun
  · rw [List.filter_cons_of_pos (by decide)]
    exact cons _

/-- **What is trimmed around a link** stands before it or in its fragment. -/
theorem exists_trimBlanks (h : IsFragment fragment) {front body back : List Char}
    (unblank : Unblank body) (hfront : ∀ c ∈ front, isBlank c = true)
    (hback : ∀ c ∈ back, isBlank c = true) :
    ∃ rest, IsFragment rest ∧ trimBlanks (front ++ (body ++ fragment) ++ back) = body ++ rest := by
  rcases h.eq_nil_or with rfl | ⟨rest, rfl⟩
  · refine ⟨[], nofun, ?_⟩
    rw [List.append_nil, unblank.trimBlanks_surrounded hfront hback]
  · have first : ∀ c ∈ body.head?, isBlank c = false := fun c hc => unblank c (List.mem_of_head? hc)
    have number : isBlank '#' = false := by decide
    obtain ⟨kept, hkept⟩ := exists_trimBoth_append hfront first number (rest ++ back)
    refine ⟨'#' :: kept, cons kept, ?_⟩
    rw [trimBlanks, ← hkept]
    simp only [List.append_assoc, List.cons_append]

/-- The query ends where the fragment begins. -/
theorem queryAndFragment_fst (h : IsFragment fragment) {before query : List Char}
    (mark : '?' ∉ before) (number : '#' ∉ before ++ '?' :: query) :
    (queryAndFragment (before ++ '?' :: query ++ fragment)).1 = query := by
  rcases h.eq_nil_or with rfl | ⟨rest, rfl⟩
  · rw [List.append_nil, queryAndFragment_of_mark mark number]
  · rw [queryAndFragment_of_number number, cutAt_append_cons mark]
    rfl

end IsFragment

/-! ### Links to designs -/

namespace DesignPath

variable (path : DesignPath)

theorem slugPart_ordinary : Ordinary path.slugPart := by
  rw [slugPart]
  cases hslug : path.slug with
  | none => exact .nil
  | some text =>
    refine .cons (by decide) fun c hc => ?_
    have hc := List.all_eq_true.mp (path.slug_chars text hslug) c hc
    rw [isSlugChar, Bool.or_eq_true, Bool.or_eq_true, beq_iff_eq, beq_iff_eq] at hc
    rcases hc with (hc | rfl) | rfl
    · exact isOrdinary_of_isAlphanum hc
    · decide
    · decide

theorem steps_ordinary : Ordinary path.steps := by
  have hword : Ordinary path.word.toList := by
    rcases path.announces with h | h
    all_goals
      rw [h]
      decide
  have hkey : Ordinary path.key.text.toList :=
    .of_isAlphanum fun c hc => List.all_eq_true.mp path.key.chars c hc
  exact hword.append (.cons (by decide) (hkey.append path.slugPart_ordinary))

theorem link_ordinary : Ordinary path.link :=
  Ordinary.append (by decide) (.cons (by decide) path.steps_ordinary)

/-- The key ends where the path does, or before its title. -/
theorem fileKey?_link {ending : List Char} (stop : ∀ c ∈ ending.head?, isKeyChar c = false) :
    fileKey? (path.link ++ ending) = some path.key.text.toList := by
  -- the word of the path is one of the two that announce a key
  have hword : '/' :: (path.word.toList ++ ['/']) = "/file/".toList
      ∨ '/' :: (path.word.toList ++ ['/']) = "/design/".toList := by
    rcases path.announces with h | h
    · exact .inl (by rw [h]; decide)
    · exact .inr (by rw [h]; decide)
  have hsplit : path.link ++ ending = origin ++ ('/' :: (path.word.toList ++ ['/'])
      ++ (path.key.text.toList ++ (path.slugPart ++ ending))) := by
    simp only [link, steps, List.append_assoc, List.cons_append, List.nil_append]
  -- the key ends where the title or the ending begins
  have hstop : ∀ c ∈ (path.slugPart ++ ending).head?, isKeyChar c = false := by
    rw [slugPart]
    cases path.slug with
    | none => exact stop
    | some text =>
      intro c hc
      obtain rfl := Option.some.inj hc
      decide
  rw [hsplit, fileKey?_of_announced hword path.key.ne_nil path.key.chars hstop]

/-- **The target of a link to a design**: the key is found, and the node is looked for in what follows
the host. -/
theorem parse_eq {link : String} {ending : List Char} (h : unescaped link = path.link ++ ending)
    (stop : ∀ c ∈ ending.head?, isKeyChar c = false) :
    parse link = .ok ⟨some path.key.text,
      (nodeIn? (queryAndFragment
        ('/' :: path.steps ++ ending.filter (!isDropped ·)))).map .ofList⟩ := by
  have hpath : path.link ++ ending = origin ++ '/' :: (path.steps ++ ending) := by
    rw [DesignPath.link, List.append_assoc, List.cons_append]
  have hsteps := filter_isDropped_of_unblank path.steps_ordinary.unblank
  rw [parse_of_origin (h.trans hpath), ← hpath, path.fileKey?_link stop, List.filter_append, hsteps,
    Option.map_some, String.ofList_toList]
  rfl

end DesignPath

/-! ### Nodes in queries -/

/-- A query without backslashes names the same node when it is escaped for a shell. -/
theorem nodeInQuery?_of_shellEscaped {query written : List Char} (escaped : ShellEscaped query written)
    (own : '\\' ∉ query) : nodeInQuery? written = nodeInQuery? query := by
  rw [nodeInQuery?, nodeInQuery?, escaped.filter_backslash own,
    (ShellEscaped.refl query).filter_backslash own]

/-- The question mark before a query may have a backslash before it. -/
theorem ShellEscaped.mark_inv {query written : List Char} (h : ShellEscaped ('?' :: query) written) :
    ∃ slash text, written = slash ++ '?' :: text ∧ (slash = [] ∨ slash = ['\\'])
      ∧ ShellEscaped query text := by
  cases h with
  | bare c rest => exact ⟨[], _, rfl, .inl rfl, rest⟩
  | escaped h rest => exact ⟨['\\'], _, rfl, .inr rfl, rest⟩

namespace DesignPath

variable (path : DesignPath)

/-- **The link that is taken apart**: the escapes are undone under the backslashes, and what comes after
the query is a fragment as before. -/
theorem exists_unescaped {asked read query fragment front back : List Char}
    (reads : Percent.Reads asked read) (unblank : Unblank asked)
    (escaped : ShellEscaped ('?' :: asked) query) (hfragment : IsFragment fragment)
    (hfront : ∀ c ∈ front, isBlank c = true) (hback : ∀ c ∈ back, isBlank c = true) :
    ∃ slash text rest, (slash = [] ∨ slash = ['\\']) ∧ ShellEscaped read text ∧ IsFragment rest
      ∧ unescaped (.ofList (front ++ (path.link ++ (query ++ fragment)) ++ back))
        = path.link ++ (slash ++ '?' :: text ++ rest) := by
  -- nothing of the path or of the query is a blank, so trimming stops at the link
  have hbody : Unblank (path.link ++ query) :=
    path.link_ordinary.unblank.append (escaped.unblank (.cons (by decide) unblank))
  obtain ⟨kept, hkept, htrim⟩ := hfragment.exists_trimBlanks hbody hfront hback
  have hquery : Percent.Reads ('?' :: asked) ('?' :: read) := .cons (by decide) reads
  -- the fragment, or what trimming has left of it, is escaped by nothing
  have hdecoded : ShellEscaped ('?' :: read ++ Percent.decode kept) (Percent.decode (query ++ kept)) := by
    rw [← hquery]
    exact (escaped.append (.refl kept)).decode
  -- the text is cut again where the query ended
  obtain ⟨written, rest, hwritten, hescaped, hrest⟩ := hdecoded.append_inv
  obtain ⟨slash, text, rfl, hslash, htext⟩ := hescaped.mark_inv
  refine ⟨slash, text, rest, hslash, htext, hkept.decode.of_shellEscaped hrest, ?_⟩
  rw [unescaped, String.toList_ofList, ← List.append_assoc path.link, htrim, List.append_assoc,
    path.link_ordinary.reads, hwritten]

/-- What is taken apart has the query after its first question mark. -/
theorem queryAndFragment_eq {slash text rest : List Char} (hslash : slash = [] ∨ slash = ['\\'])
    (number : '#' ∉ text) (hrest : IsFragment rest) :
    (queryAndFragment ('/' :: path.steps ++ (slash ++ '?' :: text ++ rest))).1 = text := by
  -- the marks that end a path are not in it
  have hplain : ∀ mark, isOrdinary mark = false → mark ≠ '\\' → mark ∉ '/' :: path.steps ++ slash := by
    intro mark hmark hne hmem
    rcases List.mem_append.mp hmem with hmem | hmem
    · exact (Ordinary.cons (by decide) path.steps_ordinary).notMem hmark hmem
    · rcases hslash with rfl | rfl
      · cases hmem
      · exact hne (List.mem_singleton.mp hmem)
  have hnumber : '#' ∉ '/' :: path.steps ++ slash ++ '?' :: text := by
    rw [List.mem_append, List.mem_cons, not_or, not_or]
    exact ⟨hplain '#' (by decide) (by decide), by decide, number⟩
  rw [← List.append_assoc, ← List.append_assoc]
  exact hrest.queryAndFragment_fst (hplain '?' (by decide) (by decide)) hnumber

/-- **A node that is named in the query is found**, whatever comes after the query. -/
theorem parse_of_query {parts : List (List Char)} {parameters : List (List Char × List Char)}
    (stands : List.Forall₂ StandsFor parts parameters) (unblank : ∀ part ∈ parts, Unblank part)
    {name : List Char} (found : nodeInQuery? (queryText parameters) = some name)
    {query fragment front back : List Char} (escaped : ShellEscaped ('?' :: joined parts) query)
    (hfragment : IsFragment fragment) (hfront : ∀ c ∈ front, isBlank c = true)
    (hback : ∀ c ∈ back, isBlank c = true) :
    parse (.ofList (front ++ (path.link ++ (query ++ fragment)) ++ back))
      = .ok ⟨some path.key.text, some (.ofList name)⟩ := by
  have ordinary := allOrdinary_of_standsFor stands
  obtain ⟨slash, text, rest, hslash, htext, hrest, hunescaped⟩ := path.exists_unescaped
    (reads_joined stands) (forall_mem_joined (by decide) unblank) escaped hfragment hfront hback
  -- the key ends at the question mark or at the backslash before it
  have hstop : ∀ c ∈ (slash ++ '?' :: text ++ rest).head?, isKeyChar c = false := by
    intro c hc
    rcases hslash with rfl | rfl
    -- the query has no number sign, so the fragment begins behind it
    all_goals
      obtain rfl := Option.some.inj hc
      decide
  have number : '#' ∉ text := fun hmem => (htext.mem hmem).elim
    (ordinary.notMem_queryText (by decide) (by decide) (by decide)) (by decide)
  -- of the query nothing is dropped
  have hquery : (slash ++ '?' :: text).filter (!isDropped ·) = slash ++ '?' :: text := by
    have hslash : Unblank slash := by
      rcases hslash with rfl | rfl
      · exact .nil
      · decide
    exact filter_isDropped_of_unblank (hslash.append (.cons (by decide)
      (htext.unblank ordinary.unblank_queryText)))
  rw [path.parse_eq hunescaped hstop, List.filter_append, hquery, nodeIn?,
    path.queryAndFragment_eq hslash number hrest.filter_isDropped, nodeInQuery?_of_shellEscaped htext
      (ordinary.notMem_queryText (by decide) (by decide) (by decide)), found]
  rfl

end DesignPath

/-! ### What parts stand for -/

theorem ordinary_nodeId : Ordinary "node-id".toList := by decide

theorem ordinary_id : Ordinary "id".toList := by decide

theorem id_ne_nodeId : "id".toList ≠ "node-id".toList := by decide

/-- **The name of a node is read back**, up to the hyphens in place of colons. -/
theorem Writing.reads {name written : List Char} (h : Writing name written) :
    ∃ value, Percent.Reads written value ∧ Ordinary value ∧ nodeName value = name := by
  have hescape (c : Char) : Percent.Reads (Percent.encode [c]) [c] := Percent.decode_encode_append [c]
  -- a sign is read as one character, which stands for the character of the name
  have hsign {sign : String} {c d : Char} {name written value : List Char}
      (hreads : Percent.Reads sign.toList [d]) (hd : isOrdinary d = true) (hname : nodeName [d] = [c])
      (ih : Percent.Reads written value ∧ Ordinary value ∧ nodeName value = name) :
      ∃ value, Percent.Reads (sign.toList ++ written) value ∧ Ordinary value
        ∧ nodeName value = c :: name := by
    obtain ⟨hrest, hordinary, hvalue⟩ := ih
    refine ⟨[d] ++ value, hreads.append hrest, .cons hd hordinary, ?_⟩
    rw [nodeName, List.map_append, ← nodeName, ← nodeName, hname, hvalue, List.singleton_append]
  induction h with
  | nil => exact ⟨[], .nil, .nil, rfl⟩
  -- a letter or a digit stands for itself
  | @plain c hc name written rest ih =>
    obtain ⟨value, hreads, hordinary, hvalue⟩ := ih
    have hpercent : c ≠ '%' := by
      rintro rfl
      exact absurd hc (by decide)
    have hhyphen : c ≠ '-' := by
      rintro rfl
      exact absurd hc (by decide)
    refine ⟨c :: value, .cons hpercent hreads, .cons (isOrdinary_of_isAlphanum hc) hordinary, ?_⟩
    rw [nodeName, List.map_cons, if_neg hhyphen, ← nodeName, hvalue]
  -- a colon is written as it is, as a hyphen or as an escape
  | colon sign h rest ih =>
    obtain ⟨value, ih⟩ := ih
    simp only [List.mem_cons, List.not_mem_nil, or_false] at h
    rcases h with rfl | rfl | rfl
    · exact hsign (.of_notMem (by decide)) (by decide) (by decide) ih
    · exact hsign (.of_notMem (by decide)) (by decide) (by decide) ih
    · exact hsign (hescape ':') (by decide) (by decide) ih
  -- a semicolon as it is or as an escape
  | semicolon sign h rest ih =>
    obtain ⟨value, ih⟩ := ih
    simp only [List.mem_cons, List.not_mem_nil, or_false] at h
    rcases h with rfl | rfl
    · exact hsign (.of_notMem (by decide)) (by decide) (by decide) ih
    · exact hsign (hescape ';') (by decide) (by decide) ih

/-- No way to write a name has blanks. -/
theorem Writing.unblank {name written : List Char} (h : Writing name written) : Unblank written := by
  induction h with
  | nil => exact .nil
  | plain hc rest ih => exact .cons (isBlank_of_isAlphanum hc) ih
  | colon sign h rest ih =>
    have hall : ∀ sign ∈ [":", "-", "%3A"], Unblank sign.toList := by decide
    exact (hall _ h).append ih
  | semicolon sign h rest ih =>
    have hall : ∀ sign ∈ [";", "%3B"], Unblank sign.toList := by decide
    exact (hall _ h).append ih

/-- **A parameter with the name of a node** stands for the name, up to the hyphens. -/
theorem Writing.standsFor {name written parameter : List Char} (h : Writing name written)
    (hparameter : Ordinary parameter) :
    Unblank (parameter ++ '=' :: written)
      ∧ ∃ value, StandsFor (parameter ++ '=' :: written) (parameter, value) ∧ nodeName value = name := by
  obtain ⟨value, hreads, hordinary, hvalue⟩ := h.reads
  exact ⟨hparameter.unblank.append (.cons (by decide) h.unblank), value,
    .of_reads hparameter hordinary hreads, hvalue⟩

/-- A further parameter stands for itself. -/
theorem IsFurther.standsFor {part : List Char} (h : IsFurther part) :
    Unblank part ∧ ∃ parameter, StandsFor part parameter
      ∧ parameter.1 ≠ "node-id".toList ∧ parameter.1 ≠ "id".toList := by
  obtain ⟨name, value, rfl, hname, hvalue, hnode, hid⟩ := h
  have hname : Ordinary name := .of_isAlphanum hname
  have hvalue : Ordinary value := .of_isAlphanum hvalue
  exact ⟨hname.unblank.append (.cons (by decide) hvalue.unblank), (name, value),
    .of_reads hname hvalue hvalue.reads, hnode, hid⟩

/-- Beside the first parameter no other one has its name. -/
theorem standsFor_of_other {part : List Char} (h : IsFurther part ∨ IsRival part) :
    Unblank part ∧ ∃ parameter, StandsFor part parameter ∧ parameter.1 ≠ "node-id".toList := by
  rcases h with h | ⟨name, written, hwriting, rfl⟩
  · obtain ⟨unblank, parameter, hstands, hne, -⟩ := h.standsFor
    exact ⟨unblank, parameter, hstands, hne⟩
  · obtain ⟨unblank, value, hstands, -⟩ := hwriting.standsFor ordinary_id
    exact ⟨unblank, _, hstands, id_ne_nodeId⟩

/-! ### All spellings -/

section Spellings

variable {name written : List Char} {before after : List (List Char)}

/-- What the parts of a query stand for, of which one has the name of a node. -/
theorem exists_standsFor {P : List Char × List Char → Prop} {parameter : List Char}
    (hparameter : Ordinary parameter) (writing : Writing name written)
    (others : ∀ part ∈ before ++ after, Unblank part ∧ ∃ other, StandsFor part other ∧ P other) :
    (∀ part ∈ before ++ (parameter ++ '=' :: written) :: after, Unblank part)
      ∧ ∃ firsts value lasts, nodeName value = name
        ∧ List.Forall₂ StandsFor (before ++ (parameter ++ '=' :: written) :: after)
          (firsts ++ (parameter, value) :: lasts)
        ∧ (∀ other ∈ firsts, P other) ∧ ∀ other ∈ lasts, P other := by
  obtain ⟨hbefore, hafter⟩ := List.forall_mem_append.mp others
  -- the node is named in the middle, and the others are parameters on both sides
  obtain ⟨unblank, value, hstands, hvalue⟩ := writing.standsFor hparameter
  obtain ⟨firsts, hfirsts, hfirst⟩ := exists_parameters fun part h => (hbefore part h).2
  obtain ⟨lasts, hlasts, hlast⟩ := exists_parameters fun part h => (hafter part h).2
  refine ⟨?_, firsts, value, lasts, hvalue, List.rel_append hfirsts (.cons hstands hlasts), hfirst, hlast⟩
  rw [List.forall_mem_append, List.forall_mem_cons]
  exact ⟨fun part h => (hbefore part h).1, unblank, fun part h => (hafter part h).1⟩

theorem value_ne_nil {value : List Char} (h : nodeName value = name) (ne : name ≠ []) : value ≠ [] := by
  rintro rfl
  exact ne h.symm

/-- **The first parameter wins** over those of the second name. -/
theorem exists_standsFor_nodeId (writing : Writing name written) (ne : name ≠ [])
    (others : ∀ part ∈ before ++ after, IsFurther part ∨ IsRival part) :
    (∀ part ∈ before ++ ("node-id".toList ++ '=' :: written) :: after, Unblank part)
      ∧ ∃ parameters, List.Forall₂ StandsFor
          (before ++ ("node-id".toList ++ '=' :: written) :: after) parameters
        ∧ nodeInQuery? (queryText parameters) = some name := by
  obtain ⟨unblank, firsts, value, lasts, hvalue, stands, hfirst, -⟩ :=
    exists_standsFor ordinary_nodeId writing fun part h => standsFor_of_other (others part h)
  have ordinary := allOrdinary_of_standsFor stands
  refine ⟨unblank, _, stands, ?_⟩
  rw [nodeInQuery?_queryText ordinary,
    valueOf?_queryText _ _ ordinary hfirst (value_ne_nil hvalue ne)]
  exact congrArg some hvalue

/-- **The second parameter counts** when there is none of the first name. -/
theorem exists_standsFor_id (writing : Writing name written) (ne : name ≠ [])
    (others : ∀ part ∈ before ++ after, IsFurther part) :
    (∀ part ∈ before ++ ("id".toList ++ '=' :: written) :: after, Unblank part)
      ∧ ∃ parameters, List.Forall₂ StandsFor
          (before ++ ("id".toList ++ '=' :: written) :: after) parameters
        ∧ nodeInQuery? (queryText parameters) = some name := by
  obtain ⟨unblank, firsts, value, lasts, hvalue, stands, hfirst, hlast⟩ :=
    exists_standsFor ordinary_id writing fun part h => (others part h).standsFor
  -- the first parameter is nowhere, so the second one names the node
  have ordinary := allOrdinary_of_standsFor stands
  have hnone : valueOf? "node-id" (parameters
      (queryText (firsts ++ ("id".toList, value) :: lasts))) = none := by
    refine valueOf?_queryText_eq_none ordinary ?_
    rw [List.forall_mem_append, List.forall_mem_cons]
    exact ⟨fun other h => (hfirst other h).1, id_ne_nodeId, fun other h => (hlast other h).1⟩
  refine ⟨unblank, _, stands, ?_⟩
  rw [nodeInQuery?_queryText ordinary, hnone,
    valueOf?_queryText _ _ ordinary (fun other h => (hfirst other h).2) (value_ne_nil hvalue ne)]
  exact congrArg some hvalue

/-- A fragment that is one parameter with the name of a node. -/
theorem nodeIn?_fragment {value : List Char} (ordinary : Ordinary value) (hvalue : nodeName value = name)
    (ne : name ≠ []) : nodeIn? ([], queryText [("node-id".toList, value)]) = some name := by
  have hall : AllOrdinary [("node-id".toList, value)] :=
    List.forall_mem_singleton.mpr ⟨ordinary_nodeId, ordinary⟩
  have hnone : nodeInQuery? [] = none := by decide
  have hfound := valueOf?_queryText [] [] hall (List.forall_mem_nil _) (value_ne_nil hvalue ne)
  rw [List.nil_append] at hfound
  rw [nodeIn?, hnone, nodeInFragment?, hfound]
  exact congrArg some hvalue

/-- **A node that is named in the fragment is found** when there is no query. -/
theorem DesignPath.parse_of_fragment (path : DesignPath) (writing : Writing name written)
    (ne : name ≠ []) {front back : List Char} (hfront : ∀ c ∈ front, isBlank c = true)
    (hback : ∀ c ∈ back, isBlank c = true) :
    parse (.ofList (front ++ (path.link ++ '#' :: ("node-id".toList ++ '=' :: written)) ++ back))
      = .ok ⟨some path.key.text, some (.ofList name)⟩ := by
  obtain ⟨unblank, value, hstands, hvalue⟩ := writing.standsFor ordinary_nodeId
  -- nothing of the link is a blank
  have hlink : Unblank (path.link ++ '#' :: ("node-id".toList ++ '=' :: written)) :=
    path.link_ordinary.unblank.append (.cons (by decide) unblank)
  have stands : List.Forall₂ StandsFor ["node-id".toList ++ '=' :: written]
      [("node-id".toList, value)] := .cons hstands .nil
  have hreads := reads_joined stands
  rw [joined_singleton] at hreads
  -- of the link only the escapes are undone
  have hunescaped : unescaped
        (.ofList (front ++ (path.link ++ '#' :: ("node-id".toList ++ '=' :: written)) ++ back))
      = path.link ++ '#' :: queryText [("node-id".toList, value)] := by
    rw [unescaped, String.toList_ofList, hlink.trimBlanks_surrounded hfront hback]
    exact (path.link_ordinary.reads.append (.cons (by decide) hreads)).decode
  have hstop : ∀ c ∈ ('#' :: queryText [("node-id".toList, value)]).head?, isKeyChar c = false := by
    intro c hc
    obtain rfl := Option.some.inj hc
    decide
  have hfilter := filter_isDropped_of_unblank
    (Unblank.cons (c := '#') (by decide) (allOrdinary_of_standsFor stands).unblank_queryText)
  have hsteps := Ordinary.cons (c := '/') (by decide) path.steps_ordinary
  -- the path has neither of the two marks
  rw [path.parse_eq hunescaped hstop, hfilter,
    queryAndFragment_of_number (hsteps.notMem (by decide)),
    cutAt_of_notMem (hsteps.notMem (by decide)), Option.getD_none,
    nodeIn?_fragment hstands.value hvalue ne]
  rfl

end Spellings

/-- **Every spelling of a link is read alike**: as the key and the node, whichever word is in the path,
whether or not there is a title, however the node is named and written, and whatever blanks are around
the link. A parameter of the first name wins over those of the second and over the fragment. -/
theorem spelling_parses (path : DesignPath) (node : NodeId) {ending front back : List Char}
    (names : NamesNode node.text.toList ending) (hfront : ∀ c ∈ front, isBlank c = true)
    (hback : ∀ c ∈ back, isBlank c = true) :
    parse (.ofList (front ++ (path.link ++ ending) ++ back))
      = .ok ⟨some path.key.text, some node.text⟩ := by
  have htext : String.ofList node.text.toList = node.text := String.ofList_toList
  rw [← htext]
  -- by the first parameter, by the second one, or in the fragment
  cases names with
  | byNodeId writing others escaped rest =>
    obtain ⟨unblank, parameters, stands, found⟩ := exists_standsFor_nodeId writing node.ne_nil others
    exact path.parse_of_query stands unblank found escaped rest hfront hback
  | byId writing others escaped rest =>
    obtain ⟨unblank, parameters, stands, found⟩ := exists_standsFor_id writing node.ne_nil others
    exact path.parse_of_query stands unblank found escaped rest hfront hback
  | inFragment writing => exact path.parse_of_fragment writing node.ne_nil hfront hback

/-- A design with a title. -/
def DesignPath.sample : DesignPath where
  word := "file"
  key := .sample
  slug := some "My-File"
  announces := .inl rfl
  slug_chars := by decide

/-- A node below an instance of a component. -/
def NodeId.sample : NodeId := ⟨"I1:2;3:4", by decide, by decide⟩

/-- Everything at once: a title, other parameters and another node on both sides, escapes within escapes
for a shell, a fragment with a third node, and blanks around all of it. -/
theorem shellLink_parses :
    NamesNode NodeId.sample.text.toList
      "\\?mode\\=dev\\&id\\=9-9\\&node-id\\=I1%3A2%3B3-4\\&t\\=x#node-id=7-7".toList
    ∧ parse ("  https://www.figma.com/file/AbC123/My-File"
        ++ "\\?mode\\=dev\\&id\\=9-9\\&node-id\\=I1%3A2%3B3-4\\&t\\=x#node-id=7-7\n")
      = .ok ⟨some "AbC123", some "I1:2;3:4"⟩ := by
  -- the two names, character by character
  have writing : Writing NodeId.sample.text.toList "I1%3A2%3B3-4".toList :=
    .plain (c := 'I') rfl (.plain (c := '1') rfl (.colon "%3A" (by decide) (.plain (c := '2') rfl
      (.semicolon "%3B" (by decide) (.plain (c := '3') rfl
        (.colon "-" (by decide) (.plain (c := '4') rfl .nil)))))))
  have rival : Writing "9:9".toList "9-9".toList :=
    .plain (c := '9') rfl (.colon "-" (by decide) (.plain (c := '9') rfl .nil))
  -- of the other parameters one names another node
  have others : ∀ part ∈ ["mode=dev".toList, "id=9-9".toList] ++ ["t=x".toList],
      IsFurther part ∨ IsRival part := by
    simp only [List.cons_append, List.nil_append, List.forall_mem_cons]
    exact ⟨.inl ⟨"mode".toList, "dev".toList, by decide, List.all_eq_true.mp (by decide),
        List.all_eq_true.mp (by decide), by decide, by decide⟩,
      .inr ⟨_, _, rival, by decide⟩,
      .inl ⟨"t".toList, "x".toList, by decide, List.all_eq_true.mp (by decide),
        List.all_eq_true.mp (by decide), by decide, by decide⟩, List.forall_mem_nil _⟩
  have names := NamesNode.byNodeId writing others (.all _) (IsFragment.cons "node-id=7-7".toList)
  have hblank : ∀ c ∈ "  ".toList, isBlank c = true := List.all_eq_true.mp (by decide)
  have hend : ∀ c ∈ "\n".toList, isBlank c = true := List.all_eq_true.mp (by decide)
  have hparse := spelling_parses .sample .sample names hblank hend
  exact ⟨names, hparse⟩

end Mockup.Link
