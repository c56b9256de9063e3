import Mockup.Proofs.Link.Parts

/-!
# Links with a title

A link to a node of a design has the title of the design in its path, escaped, and the node in its
query. The reader of a link undoes the escapes before it takes the link apart. So a title may bring
a separator with it, and then the parts of the link are not what they were when it was written.

* `FileKey`, `NodeRef` — the key of a file, and a node of it by its two numbers;
* `designLink` — **the link to a node** of a design with a title;
* `Settled` — what is found in a link does not depend on the node, or is not the name of a node;
* `designLink_reads_back_iff` — **the node is read back, whichever it is, exactly when the title has
  neither a question mark nor a number sign**; the key always is.

With such a title the node stands after a second question mark, or in the fragment after one. There
it can only be the end of the last parameter, whose name or value then has the question mark in it
(`valueOf?_settled`). No name of a node has, so what is found otherwise was fixed by the title.
-/

namespace Mockup

namespace Link

open Text

/-! ### Keys and nodes -/

/-- **The key of a file**: letters and digits. -/
structure FileKey where
  text : String
  ne_nil : text.toList ≠ []
  chars : text.toList.all isKeyChar = true

/-- **A node**, by two numbers in digits. -/
structure NodeRef where
  first : String
  second : String
  first_digits : first.toList.all Char.isDigit = true
  second_digits : second.toList.all Char.isDigit = true

/-- The name of the parameter that names a node. -/
def parameterName : List Char := "node-id".toList

namespace NodeRef

/-- The name of the node in the document. -/
def name (node : NodeRef) : String := node.first ++ ":" ++ node.second

/-- The name of the node in a link. -/
def inLink (node : NodeRef) : List Char := node.first.toList ++ '-' :: node.second.toList

/-- The end of a link, which names the node. -/
def tail (node : NodeRef) : List Char := '?' :: (parameterName ++ '=' :: node.inLink)

end NodeRef

/-- The node of the first canvas of a file. -/
def NodeRef.firstCanvas : NodeRef := ⟨"0", "1", by decide, by decide⟩

/-- A node below it. -/
def NodeRef.firstFrame : NodeRef := ⟨"1", "2", by decide, by decide⟩

/-- **The link to a node** of a design: the title of the design stands after its key, with every
character escaped that could be taken for a separator. -/
def designLink (key : FileKey) (title : String) (node : NodeRef) : String :=
  "https://www.figma.com/design/" ++ key.text ++ "/" ++ .ofList (Percent.encode title.toList)
    ++ "?node-id=" ++ node.first ++ "-" ++ node.second

/-! ### The characters of a link -/

/-- A character of the name of a node in a link. -/
def isNodeChar (c : Char) : Bool := c.isDigit || c == '-'

/-- A character of the end of a link. -/
def isTailChar (c : Char) : Bool :=
  isNodeChar c || c == '?' || c == '=' || parameterName.contains c

/-- Neither digits nor hyphens are blank. -/
theorem isBlank_of_isNodeChar {c : Char} (h : isNodeChar c = true) : isBlank c = false := by
  rw [isNodeChar, Bool.or_eq_true, beq_iff_eq] at h
  obtain hdigit | rfl := h
  · have hrange : 48 ≤ c.toNat ∧ c.toNat ≤ 57 := by
      simpa [Char.isDigit, UInt32.le_iff_toNat_le] using hdigit
    simp [isBlank]
    omega
  · decide

namespace NodeRef

variable {node : NodeRef} {c : Char}

theorem isNodeChar_of_mem (h : c ∈ node.inLink) : isNodeChar c = true := by
  rw [isNodeChar, Bool.or_eq_true]
  obtain hfirst | hrest := List.mem_append.mp h
  · exact .inl (List.all_eq_true.mp node.first_digits c hfirst)
  obtain rfl | hsecond := List.mem_cons.mp hrest
  · exact .inr rfl
  · exact .inl (List.all_eq_true.mp node.second_digits c hsecond)

theorem notMem_inLink (h : isNodeChar c = false) : c ∉ node.inLink := fun hmem => by
  cases h.symm.trans (isNodeChar_of_mem hmem)

theorem isTailChar_of_mem (h : c ∈ node.tail) : isTailChar c = true := by
  rw [isTailChar, Bool.or_eq_true, Bool.or_eq_true, Bool.or_eq_true]
  obtain rfl | h := List.mem_cons.mp h
  · exact .inl (.inl (.inr rfl))
  obtain hname | h := List.mem_append.mp h
  · exact .inr (List.contains_iff_mem.mpr hname)
  obtain rfl | hnode := List.mem_cons.mp h
  · exact .inl (.inr rfl)
  · exact .inl (.inl (.inl (isNodeChar_of_mem hnode)))

theorem notMem_tail (h : isTailChar c = false) : c ∉ node.tail := fun hmem => by
  cases h.symm.trans (isTailChar_of_mem hmem)

theorem inLink_ne_nil (node : NodeRef) : node.inLink ≠ [] := by
  rw [inLink]
  exact List.append_ne_nil_of_right_ne_nil _ (List.cons_ne_nil _ _)

/-- The name of a node in a link has no escapes. -/
theorem decodeForm_inLink (node : NodeRef) : Percent.decodeForm node.inLink = node.inLink :=
  Percent.decodeForm_eq_self (notMem_inLink (by decide)) (notMem_inLink (by decide))

/-- The hyphen of a link becomes the colon of the document. -/
theorem nodeName_inLink (node : NodeRef) : nodeName node.inLink = node.name.toList := by
  have hdigits (cs : List Char) (h : cs.all Char.isDigit = true) : nodeName cs = cs := by
    refine (List.map_congr_left fun c hc => ?_).trans (List.map_id cs)
    have hhyphen : c ≠ '-' := by
      rintro rfl
      exact absurd (List.all_eq_true.mp h '-' hc) (by decide)
    exact if_neg hhyphen
  have hsplit : nodeName node.inLink
      = nodeName node.first.toList ++ ':' :: nodeName node.second.toList := List.map_append
  have hcolon : ":".toList = [':'] := by decide
  rw [hsplit, hdigits _ node.first_digits, hdigits _ node.second_digits, name, String.toList_append,
    String.toList_append, hcolon, List.append_assoc, List.singleton_append]

/-- The name of a node has no question mark. -/
theorem notMem_name (node : NodeRef) : '?' ∉ node.name.toList := by
  rw [← nodeName_inLink]
  intro h
  obtain ⟨c, hc, hmark⟩ := List.mem_map.mp h
  split at hmark
  · cases hmark
  · subst hmark
    exact notMem_inLink (by decide) hc

end NodeRef

/-- A key has no percent sign. -/
theorem FileKey.percent_notMem (key : FileKey) : '%' ∉ key.text.toList := fun h => by
  cases List.all_eq_true.mp key.chars '%' h

/-- What stands before the title in the link to a node. -/
def beforeTitle (key : FileKey) : List Char :=
  origin ++ "/design/".toList ++ key.text.toList ++ ['/']

theorem toList_designLink (key : FileKey) (title : String) (node : NodeRef) :
    (designLink key title node).toList
      = beforeTitle key ++ (Percent.encode title.toList ++ node.tail) := by
  -- the fixed texts are variables here, because their characters are of no use to the rewriting
  have hpieces {beginning slash query hyphen written : String}
      (hbeginning : beginning.toList = origin ++ "/design/".toList) (hslash : slash.toList = ['/'])
      (hquery : query.toList = '?' :: parameterName ++ ['=']) (hhyphen : hyphen.toList = ['-']) :
      (beginning ++ key.text ++ slash ++ written ++ query ++ node.first ++ hyphen
        ++ node.second).toList = beforeTitle key ++ (written.toList ++ node.tail) := by
    simp only [String.toList_append, hslash, hquery, hhyphen]
    rw [hbeginning, ← beforeTitle]
    generalize beforeTitle key = before
    simp only [NodeRef.tail, NodeRef.inLink, List.append_assoc, List.cons_append, List.nil_append]
  have htitle : (String.ofList (Percent.encode title.toList)).toList = Percent.encode title.toList :=
    String.toList_ofList
  -- the title is written as its encoding
  exact (hpieces (by decide) (by decide) (by decide) (by decide)).trans (by rw [htitle])

/-- There is nothing to trim. -/
theorem trimBlanks_designLink (key : FileKey) (title : String) (node : NodeRef) :
    trimBlanks (designLink key title node).toList = (designLink key title node).toList := by
  -- a link begins with a letter and ends with a character of the node
  rw [toList_designLink]
  refine trimBoth_eq_self ?_ ?_
  -- the first letter is that of the scheme
  · rintro c ⟨⟩
    decide
  -- the last character is one of the node
  · intro c hc
    have hend : beforeTitle key ++ (Percent.encode title.toList ++ node.tail)
        = beforeTitle key ++ Percent.encode title.toList ++ '?' :: parameterName ++ ['=']
          ++ node.inLink := by
      simp only [NodeRef.tail, List.append_assoc, List.cons_append, List.nil_append]
    rw [hend] at hc
    exact isBlank_of_isNodeChar
      (NodeRef.isNodeChar_of_mem (mem_of_mem_getLast?_append node.inLink_ne_nil hc))

/-- **What the reader takes apart is the link with the bare title.** -/
theorem unescaped_designLink (key : FileKey) (title : String) (node : NodeRef) :
    unescaped (designLink key title node) = beforeTitle key ++ (title.toList ++ node.tail) := by
  have hplain : '%' ∉ beforeTitle key := by
    have horigin : '%' ∉ origin ++ "/design/".toList := by decide
    intro h
    obtain h | h := List.mem_append.mp h
    · exact (List.mem_append.mp h).elim horigin key.percent_notMem
    · cases List.mem_singleton.mp h
  -- only the title has escapes, and they are undone before the link is taken apart
  rw [unescaped, trimBlanks_designLink, toList_designLink, Percent.decode_append_of_notMem hplain,
    Percent.decode_encode_append, Percent.decode_eq_self (NodeRef.notMem_tail (by decide))]

/-! ### What does not depend on the node -/

/-- **What is found does not depend on the node**, except that it may be something with a question
mark, which is the name of no node. -/
def Settled (found : NodeRef → Option (List Char)) : Prop :=
  ∃ fixed, ∀ node, found node = fixed ∨ ∃ text, found node = some text ∧ '?' ∈ text

namespace Settled

variable {found other : NodeRef → Option (List Char)}

theorem const (fixed : Option (List Char)) : Settled fun _ => fixed := ⟨fixed, fun _ => .inl rfl⟩

/-- Where the first is not found, the other one is looked for. -/
theorem orElse (h : Settled found) (hother : Settled other) :
    Settled fun node => found node <|> other node := by
  obtain ⟨fixed, h⟩ := h
  obtain ⟨otherFixed, hother⟩ := hother
  refine ⟨fixed <|> otherFixed, fun node => ?_⟩
  dsimp only
  obtain hfixed | ⟨text, hfound, hmark⟩ := h node
  · rw [hfixed]
    cases fixed with
    | some text => exact .inl rfl
    | none => exact hother node
  · rw [hfound]
    exact .inr ⟨text, rfl, hmark⟩

theorem map_nodeName (h : Settled found) : Settled fun node => (found node).map nodeName := by
  obtain ⟨fixed, h⟩ := h
  refine ⟨fixed.map nodeName, fun node => ?_⟩
  obtain hfixed | ⟨text, hfound, hmark⟩ := h node
  · exact .inl (congrArg _ hfixed)
  · have hname : (found node).map nodeName = some (nodeName text) := by rw [hfound, Option.map_some]
    exact .inr ⟨nodeName text, hname, List.mem_map.mpr ⟨'?', hmark, rfl⟩⟩

/-- **At most one node is found by its name.** -/
theorem unique (h : Settled found) {m n : NodeRef} (hm : found m = some m.name.toList)
    (hn : found n = some n.name.toList) : m.name = n.name := by
  obtain ⟨fixed, h⟩ := h
  have hfixed (node : NodeRef) (hnode : found node = some node.name.toList) :
      fixed = some node.name.toList := by
    obtain hfixed | ⟨text, hfound, hmark⟩ := h node
    · exact hfixed.symm.trans hnode
    · -- no node has a name with a question mark
      obtain rfl := Option.some.inj (hnode.symm.trans hfound)
      exact absurd hmark node.notMem_name
  exact String.toList_inj.mp (Option.some.inj ((hfixed m hm).symm.trans (hfixed n hn)))

end Settled

/-! ### Parameters with the node at their end -/

theorem valueOf?_append (name : String) (front back : List (List Char × List Char)) :
    valueOf? name (front ++ back) = (valueOf? name front <|> valueOf? name back) := by
  rw [valueOf?, valueOf?, valueOf?, List.find?_append]
  cases front.find? fun parameter => parameter.1 = name.toList with
  | some parameter => rfl
  | none => rfl

theorem valueOf?_singleton_of_eq {name : String} {parameter : List Char × List Char}
    (h : parameter.1 = name.toList) : valueOf? name [parameter] = some parameter.2 := by
  rw [valueOf?, List.find?_cons_of_pos (by simpa using h)]
  rfl

theorem valueOf?_singleton_of_ne {name : String} {parameter : List Char × List Char}
    (h : parameter.1 ≠ name.toList) : valueOf? name [parameter] = none := by
  rw [valueOf?, List.find?_cons_of_neg (by simpa using h)]
  rfl

/-- A parameter with a value. -/
theorem parameter?_eq {name value : List Char} (hname : '=' ∉ name) (hvalue : value ≠ []) :
    parameter? (name ++ '=' :: value)
      = some (Percent.decodeForm name, Percent.decodeForm value) := by
  have hempty : ¬ value.isEmpty = true := fun h => hvalue (List.isEmpty_iff.mp h)
  rw [parameter?, cutAt_append_cons hname]
  exact if_neg hempty

/-- The last parameter, when the node comes after its beginning. -/
theorem valueOf?_last_settled {name : String} (hname : '?' ∉ name.toList) (last : List Char) :
    Settled fun node => valueOf? name (parameter? (last ++ node.tail)).toList := by
  refine ⟨none, fun node => ?_⟩
  dsimp only
  by_cases hmem : '=' ∈ last
  · -- the node is a part of the value
    obtain ⟨before, value, rfl, hbefore⟩ := List.eq_append_cons_of_mem hmem
    have hmark : '?' ∈ Percent.decodeForm (value ++ node.tail) := by
      refine Percent.mem_decodeForm_of_mem (by decide) (by decide) (by decide) ?_
      exact List.mem_append_right _ List.mem_cons_self
    have hvalue : value ++ node.tail ≠ [] :=
      List.append_ne_nil_of_right_ne_nil _ (List.cons_ne_nil _ _)
    -- the value is there, and the name decides whether it counts
    rw [List.append_assoc, List.cons_append, parameter?_eq hbefore hvalue, Option.toList_some]
    by_cases hfound : Percent.decodeForm before = name.toList
    · exact .inr ⟨_, valueOf?_singleton_of_eq hfound, hmark⟩
    · exact .inl (valueOf?_singleton_of_ne hfound)
  · -- the question mark before the node is a part of the name
    have hbefore : '=' ∉ last ++ '?' :: parameterName := fun h =>
      (List.mem_append.mp h).elim hmem (by decide)
    have hmark : '?' ∈ Percent.decodeForm (last ++ '?' :: parameterName) := by
      refine Percent.mem_decodeForm_of_mem (by decide) (by decide) (by decide) ?_
      exact List.mem_append_right _ List.mem_cons_self
    have hother : Percent.decodeForm (last ++ '?' :: parameterName) ≠ name.toList := fun e =>
      hname (e ▸ hmark)
    have hsplit : last ++ node.tail = (last ++ '?' :: parameterName) ++ '=' :: node.inLink := by
      rw [NodeRef.tail, List.append_assoc, List.cons_append]
    rw [hsplit, parameter?_eq hbefore node.inLink_ne_nil, Option.toList_some]
    exact .inl (valueOf?_singleton_of_ne hother)

/-- **What a query says before the node, the node does not change.** -/
theorem valueOf?_settled {name : String} (hname : '?' ∉ name.toList) (query : List Char) :
    Settled fun node => valueOf? name (parameters (query ++ node.tail)) := by
  -- the node is appended to the last parameter of the query; the others stay
  obtain ⟨front, last, hsplit⟩ := exists_splitAtEach_append '&' query
  have heq (node : NodeRef) : valueOf? name (parameters (query ++ node.tail))
      = (valueOf? name (front.filterMap parameter?)
        <|> valueOf? name (parameter? (last ++ node.tail)).toList) := by
    -- no ampersand in the tail, so only the last part changes
    rw [parameters, hsplit _ (NodeRef.notMem_tail (by decide)), List.filterMap_append,
      valueOf?_append]
    -- the last parameter may be dropped, when its value is empty
    cases h : parameter? (last ++ node.tail) with
    | none => rw [List.filterMap_cons_none h]; rfl
    | some parameter => rw [List.filterMap_cons_some h]; rfl
  simp only [heq]
  exact (Settled.const _).orElse (valueOf?_last_settled hname last)

/-- There are no backslashes at the end of a link. -/
theorem NodeRef.filter_tail (node : NodeRef) : node.tail.filter (· ≠ '\\') = node.tail := by
  refine List.filter_eq_self.mpr fun c hc => decide_eq_true ?_
  rintro rfl
  exact notMem_tail (by decide) hc

theorem nodeInQuery?_settled (query : List Char) :
    Settled fun node => nodeInQuery? (query ++ node.tail) := by
  simp only [nodeInQuery?, List.filter_append, NodeRef.filter_tail]
  exact ((valueOf?_settled (by decide) _).orElse (valueOf?_settled (by decide) _)).map_nodeName

theorem nodeInFragment?_settled (fragment : List Char) :
    Settled fun node => nodeInFragment? (fragment ++ node.tail) :=
  (valueOf?_settled (by decide) fragment).map_nodeName

/-! ### The node of a path -/

section Path

variable {path : List Char}

/-- The fragment is what follows the first number sign, and the query stands before that. -/
theorem queryAndFragment_of_number {before : List Char} (number : '#' ∉ before)
    (fragment : List Char) :
    queryAndFragment (before ++ '#' :: fragment) = ((cutAt '?' before).2.getD [], fragment) := by
  rw [queryAndFragment, cutAt_append_cons number]
  rfl

/-- A path with a number sign leaves the node to the fragment. -/
theorem nodeIn?_settled_of_number (h : '#' ∈ path) :
    Settled fun node => nodeIn? (queryAndFragment (path ++ node.tail)) := by
  obtain ⟨before, fragment, rfl, hbefore⟩ := List.eq_append_cons_of_mem h
  have hparts (node : NodeRef) : queryAndFragment (before ++ '#' :: fragment ++ node.tail)
      = ((cutAt '?' before).2.getD [], fragment ++ node.tail) := by
    rw [List.append_assoc, List.cons_append, queryAndFragment_of_number hbefore]
  simp only [hparts, nodeIn?]
  exact (Settled.const _).orElse (nodeInFragment?_settled fragment)

/-- Without a number sign everything after the first question mark is the query. -/
theorem queryAndFragment_of_mark {before query : List Char} (mark : '?' ∉ before)
    (number : '#' ∉ before ++ '?' :: query) :
    queryAndFragment (before ++ '?' :: query) = (query, []) := by
  rw [queryAndFragment, cutAt_of_notMem number]
  dsimp only
  rw [cutAt_append_cons mark]
  rfl

/-- A path with a question mark has the node after another one in the query. -/
theorem nodeIn?_settled_of_mark (h : '?' ∈ path) (number : '#' ∉ path) :
    Settled fun node => nodeIn? (queryAndFragment (path ++ node.tail)) := by
  obtain ⟨before, query, rfl, hbefore⟩ := List.eq_append_cons_of_mem h
  have hparts (node : NodeRef) : queryAndFragment (before ++ '?' :: query ++ node.tail)
      = (query ++ node.tail, []) := by
    have hnumber : '#' ∉ before ++ '?' :: (query ++ node.tail) := by
      rw [← List.cons_append, ← List.append_assoc]
      exact fun h => (List.mem_append.mp h).elim number (NodeRef.notMem_tail (by decide))
    rw [List.append_assoc, List.cons_append, queryAndFragment_of_mark hbefore hnumber]
  simp only [hparts, nodeIn?]
  exact (nodeInQuery?_settled query).orElse (Settled.const _)

/-- **A path with a separator settles what is found.** -/
theorem nodeIn?_settled (h : '?' ∈ path ∨ '#' ∈ path) :
    Settled fun node => nodeIn? (queryAndFragment (path ++ node.tail)) := by
  by_cases number : '#' ∈ path
  · exact nodeIn?_settled_of_number number
  · exact nodeIn?_settled_of_mark (h.resolve_right number) number

/-- **A path without separators leaves the node to the query.** -/
theorem nodeIn?_of_plain (mark : '?' ∉ path) (number : '#' ∉ path) (node : NodeRef) :
    nodeIn? (queryAndFragment (path ++ node.tail)) = some node.name.toList := by
  -- neither the path nor the tail has a fragment mark
  have hnumber : '#' ∉ path ++ node.tail := fun h =>
    (List.mem_append.mp h).elim number (NodeRef.notMem_tail (by decide))
  -- the query is one parameter, and nothing in it is dropped or decoded
  have hslashes : (parameterName ++ '=' :: node.inLink).filter (· ≠ '\\')
      = parameterName ++ '=' :: node.inLink := by
    have htail := node.filter_tail
    rw [NodeRef.tail, List.filter_cons_of_pos (by decide)] at htail
    exact List.tail_eq_of_cons_eq htail
  have hone : '&' ∉ parameterName ++ '=' :: node.inLink := fun h =>
    have htail : '&' ∉ node.tail := NodeRef.notMem_tail (by decide)
    htail (List.mem_cons_of_mem _ h)
  have hname : Percent.decodeForm parameterName = "node-id".toList := by decide
  have hparameters : parameters (parameterName ++ '=' :: node.inLink)
      = [("node-id".toList, node.inLink)] := by
    have hequals : '=' ∉ parameterName := by decide
    have hparameter := parameter?_eq hequals node.inLink_ne_nil
    rw [parameters, splitAtEach_of_notMem hone, List.filterMap_cons_some hparameter,
      List.filterMap_nil, hname, node.decodeForm_inLink]
  -- the one parameter is the node's
  have hfound : valueOf? "node-id" [("node-id".toList, node.inLink)] = some node.inLink :=
    valueOf?_singleton_of_eq rfl
  rw [NodeRef.tail] at hnumber ⊢
  rw [queryAndFragment_of_mark mark hnumber, nodeIn?, nodeInQuery?]
  dsimp only
  rw [hslashes, hparameters, hfound, ← node.nodeName_inLink]
  rfl

end Path

/-! ### Links with a title -/

/-- What stands between the host and the node in the link that is taken apart. -/
def pathOf (key : FileKey) (title : String) : List Char :=
  '/' :: ("design/".toList ++ key.text.toList ++ '/' :: title.toList).filter (!isDropped ·)

/-- A separator in the path is one in the title. -/
theorem mem_pathOf_iff {key : FileKey} {title : String} {c : Char} (dropped : isDropped c = false)
    (inKey : isKeyChar c = false) (fixed : c ∉ '/' :: "design/".toList) :
    c ∈ pathOf key title ↔ c ∈ title.toList := by
  obtain ⟨slash, design⟩ := List.ne_and_not_mem_of_not_mem_cons fixed
  have hkey : c ∉ key.text.toList := fun h => by
    cases inKey.symm.trans (List.all_eq_true.mp key.chars c h)
  rw [pathOf, List.mem_cons, List.mem_filter, List.mem_append, List.mem_append, List.mem_cons]
  simp only [slash, design, hkey, dropped, false_or, Bool.not_false, and_true]

/-- **The target of a link with a title**: the key is found, and the node is looked for in what
follows the host. -/
theorem parse_designLink (key : FileKey) (title : String) (node : NodeRef) :
    parse (designLink key title node) = .ok ⟨some key.text,
      (nodeIn? (queryAndFragment (pathOf key title ++ node.tail))).map .ofList⟩ := by
  have hslash : "/design/".toList = '/' :: "design/".toList := by decide
  have hunescaped : unescaped (designLink key title node)
      = origin ++ "/design/".toList ++ key.text.toList ++ '/' :: (title.toList ++ node.tail) := by
    rw [unescaped_designLink, beforeTitle, List.append_assoc _ ['/'], List.singleton_append]
  -- the address of the link is its origin, a slash and a path
  have hpath : unescaped (designLink key title node)
      = origin ++ '/' :: ("design/".toList ++ key.text.toList ++ '/' :: title.toList ++ node.tail) := by
    rw [hunescaped, hslash]
    simp only [List.append_assoc, List.cons_append]
  -- tabs and line ends of the title are dropped; the end of the link has none
  have htail : node.tail.filter (!isDropped ·) = node.tail := by
    refine List.filter_eq_self.mpr fun c hc => ?_
    cases hdropped : isDropped c with
    | false => rfl
    | true =>
      rw [isDropped, Bool.or_eq_true, Bool.or_eq_true, beq_iff_eq, beq_iff_eq, beq_iff_eq] at hdropped
      rcases hdropped with (rfl | rfl) | rfl
      · exact absurd hc (NodeRef.notMem_tail (by decide))
      · exact absurd hc (NodeRef.notMem_tail (by decide))
      · exact absurd hc (NodeRef.notMem_tail (by decide))
  -- the key ends at the slash before the title
  have hkey : fileKey? (origin ++ "/design/".toList ++ key.text.toList
      ++ '/' :: (title.toList ++ node.tail)) = some key.text.toList := by
    rw [List.append_assoc, List.append_assoc]
    refine fileKey?_of_announced (.inr rfl) key.ne_nil key.chars fun c hc => ?_
    obtain rfl := Option.some.inj hc
    decide
  rw [parse_of_origin hpath, List.filter_append, htail, ← hpath, hunescaped, hkey, Option.map_some,
    String.ofList_toList]
  rfl

/-- **A link is read back whatever the node, exactly when its title has neither a question mark nor a
number sign.** The key is read in any case, and a title with one of the two leaves at most one node
that is read back. -/
theorem designLink_reads_back_iff (key : FileKey) (title : String) :
    (∀ node : NodeRef,
      ∃ found, parse (designLink key title node) = .ok ⟨some key.text, found⟩)
    ∧ ((∀ node : NodeRef,
        parse (designLink key title node) = .ok ⟨some key.text, some node.name⟩)
      ↔ '?' ∉ title.toList ∧ '#' ∉ title.toList)
    ∧ ('?' ∈ title.toList ∨ '#' ∈ title.toList → ∀ m n : NodeRef,
      parse (designLink key title m) = .ok ⟨some key.text, some m.name⟩ →
      parse (designLink key title n) = .ok ⟨some key.text, some n.name⟩ → m.name = n.name) := by
  have hmark : '?' ∈ pathOf key title ↔ '?' ∈ title.toList :=
    mem_pathOf_iff (by decide) (by decide) (by decide)
  have hnumber : '#' ∈ pathOf key title ↔ '#' ∈ title.toList :=
    mem_pathOf_iff (by decide) (by decide) (by decide)
  -- a node is read back when the query gives its name
  have hfound (node : NodeRef) :
      parse (designLink key title node) = .ok ⟨some key.text, some node.name⟩
        ↔ nodeIn? (queryAndFragment (pathOf key title ++ node.tail)) = some node.name.toList := by
    rw [parse_designLink]
    constructor
    · intro h
      obtain ⟨-, h⟩ := Target.mk.inj (Except.ok.inj h)
      obtain ⟨text, htext, hname⟩ := Option.map_eq_some_iff.mp h
      rw [htext, ← hname, String.toList_ofList]
    · intro h
      rw [h, Option.map_some, String.ofList_toList]
  -- with a separator in the title all nodes give one answer, if any
  have hsettled (h : '?' ∈ title.toList ∨ '#' ∈ title.toList) (m n : NodeRef)
      (hm : parse (designLink key title m) = .ok ⟨some key.text, some m.name⟩)
      (hn : parse (designLink key title n) = .ok ⟨some key.text, some n.name⟩) :
      m.name = n.name := by
    rw [← hmark, ← hnumber] at h
    exact (nodeIn?_settled h).unique ((hfound m).mp hm) ((hfound n).mp hn)
  refine ⟨fun node => ⟨_, parse_designLink key title node⟩, ⟨fun h => ?_, fun h node => ?_⟩, hsettled⟩
  · -- two nodes cannot both be read back from a title with a separator
    rw [← not_or]
    intro separator
    have hsame : NodeRef.firstCanvas.name = NodeRef.firstFrame.name :=
      hsettled separator _ _ (h _) (h _)
    exact absurd hsame (by decide)
  -- without one the query begins after the title
  · obtain ⟨mark, number⟩ := h
    rw [← hmark] at mark
    rw [← hnumber] at number
    exact (hfound node).mpr (nodeIn?_of_plain mark number node)

/-- A file. -/
def FileKey.sample : FileKey := ⟨"AbC123", by decide, by decide⟩

/-- The title ends with a question mark: the whole file is converted in place of the node. -/
theorem question_title_not_read :
    parse (designLink .sample "What?" .firstFrame) = .ok ⟨some "AbC123", none⟩
    ∧ parse (designLink .sample "What?" .firstFrame)
      ≠ .ok ⟨some FileKey.sample.text, some NodeRef.firstFrame.name⟩ := by
  have hnode : nodeIn? (queryAndFragment (pathOf .sample "What?" ++ NodeRef.firstFrame.tail)) = none := by
    decide
  have htarget : parse (designLink .sample "What?" .firstFrame) = .ok ⟨some "AbC123", none⟩ := by
    rw [parse_designLink, hnode]
    rfl
  refine ⟨htarget, fun h => ?_⟩
  cases htarget.symm.trans h

end Link

end Mockup
