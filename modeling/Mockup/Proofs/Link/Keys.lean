import Mathlib.Data.Option.Basic
import Mockup.Proofs.Link.Handling
import Mockup.Proofs.Link.Title

/-!
# The names in a link

What a link names goes into the addresses of requests as it stands: the key of a file into the path,
and a node beside it. So a key should be letters and digits, and a node a name as documents have it,
without hyphens. A node is always one. A key is one wherever it is announced by a word; a key alone
may have a line end after it, which does not keep it from being a key and is then taken for a part
of it.

* `isBareKey_iff` — **what a key alone is**;
* `fileKey?_isKey`, `nodeIn?_isNodeName` — what is found in a text;
* `parse_cases` — a link that is read is a key alone, or a text in which a key and a node are found;
* `addressOf`, `convertLink_addresses` — **the addresses of all requests** of a conversion;
* `target_in_order_iff` — **the names in a link are in order, but for a line end**.
-/

namespace Mockup

namespace Link

open Text

/-! ### Keys -/

/-- The characters of a key: letters and digits, at least one. -/
structure IsKey (cs : List Char) : Prop where
  ne_nil : cs ≠ []
  chars : ∀ c ∈ cs, isKeyChar c = true

theorem FileKey.isKey (key : FileKey) : IsKey key.text.toList :=
  ⟨key.ne_nil, List.all_eq_true.mp key.chars⟩

/-- The characters of a key are a key of a file. -/
theorem IsKey.exists_fileKey {cs : List Char} (h : IsKey cs) :
    ∃ key : FileKey, cs = key.text.toList := by
  refine ⟨⟨.ofList cs, ?_, ?_⟩, String.toList_ofList.symm⟩
  · rw [String.toList_ofList]
    exact h.ne_nil
  · rw [String.toList_ofList]
    exact List.all_eq_true.mpr h.chars

/-- **A key alone**: letters and digits, and a line end that does not count. -/
theorem isBareKey_iff {cs : List Char} :
    isBareKey cs = true ↔ ∃ key, IsKey key ∧ (cs = key ∨ cs = key ++ ['\n']) := by
  have lineEnd : isKeyChar '\n' = false := by decide
  rw [isBareKey, Bool.and_eq_true, Bool.or_eq_true, beq_iff_eq, beq_iff_eq]
  -- what is left after the key is nothing or a line end
  constructor
  · rintro ⟨first, rest⟩
    refine ⟨cs.takeWhile isKeyChar, ⟨?_, fun c hc => List.mem_takeWhile_imp hc⟩, ?_⟩
    · -- the first character is one of a key
      obtain ⟨c, hhead, hc⟩ := Option.any_eq_true _ _ |>.mp first
      obtain ⟨rest, rfl⟩ := List.head?_eq_some_iff.mp hhead
      rw [List.takeWhile_cons_of_pos hc]
      exact List.cons_ne_nil _ _
    -- the text is cut where the key ends
    · have hcut := List.takeWhile_append_dropWhile (p := isKeyChar) (l := cs)
      rcases rest with rest | rest
      · rw [rest, List.append_nil] at hcut
        exact .inl hcut.symm
      · rw [rest] at hcut
        exact .inr hcut.symm
  -- a key, with or without a line end
  · rintro ⟨key, ⟨ne_nil, chars⟩, hcs⟩
    obtain ⟨c, key, rfl⟩ := List.exists_cons_of_ne_nil ne_nil
    have first : isKeyChar c = true := chars c List.mem_cons_self
    rcases hcs with rfl | rfl
    · exact ⟨first, .inl (List.dropWhile_eq_nil_iff.mpr chars)⟩
    · refine ⟨first, .inr ?_⟩
      rw [List.dropWhile_append_of_pos chars, List.dropWhile_cons_of_neg (by simp [lineEnd])]

/-- What a word announces as a key is one. -/
theorem keyHere?_isKey {cs key : List Char} (h : keyHere? cs = some key) : IsKey key := by
  obtain ⟨rest, -, h⟩ := Option.bind_eq_some_iff.mp h
  dsimp only at h
  split at h
  · cases h
  · rename_i given
    obtain rfl := Option.some.inj h
    exact ⟨fun hnil => given (List.isEmpty_iff.mpr hnil), fun c hc => List.mem_takeWhile_imp hc⟩

/-- **The key that is found in a text is one.** -/
theorem fileKey?_isKey {cs key : List Char} (h : fileKey? cs = some key) : IsKey key := by
  induction cs with
  | nil => cases h
  | cons c rest ih =>
    rw [fileKey?] at h
    rcases (Option.orElse_eq_some _ _ _).mp h with h | ⟨-, h⟩
    · exact keyHere?_isKey h
    · exact ih h

/-! ### Nodes -/

/-- The characters of a node as documents name it. -/
structure IsNodeName (cs : List Char) : Prop where
  ne_nil : cs ≠ []
  hyphen : '-' ∉ cs

/-- A node is named without hyphens. -/
theorem isNodeName_nodeName {cs : List Char} (h : cs ≠ []) : IsNodeName (nodeName cs) := by
  refine ⟨fun hmap => h (List.map_eq_nil_iff.mp hmap), fun hmem => ?_⟩
  obtain ⟨c, -, hc⟩ := List.mem_map.mp hmem
  split at hc
  · cases hc
  · exact absurd hc ‹_›

/-- A parameter has a value that is not empty. -/
theorem parameter?_ne_nil {cs : List Char} {parameter : List Char × List Char}
    (h : parameter? cs = some parameter) : parameter.2 ≠ [] := by
  unfold parameter? at h
  split at h
  · split at h
    · cases h
    · rename_i given
      obtain rfl := Option.some.inj h
      exact Percent.decodeForm_ne_nil fun hnil => given (List.isEmpty_iff.mpr hnil)
  · cases h

theorem valueOf?_ne_nil {name : String} {query value : List Char}
    (h : valueOf? name (parameters query) = some value) : value ≠ [] := by
  obtain ⟨parameter, hfind, rfl⟩ := Option.map_eq_some_iff.mp h
  obtain ⟨part, -, hpart⟩ := List.mem_filterMap.mp (List.mem_of_find?_eq_some hfind)
  exact parameter?_ne_nil hpart

/-- **The node that is found in a link is named as documents name it.** -/
theorem nodeIn?_isNodeName {found : List Char × List Char} {id : List Char}
    (h : nodeIn? found = some id) : IsNodeName id := by
  rcases (Option.orElse_eq_some _ _ _).mp h with h | ⟨-, h⟩
  · obtain ⟨value, hvalue, rfl⟩ := Option.map_eq_some_iff.mp h
    refine isNodeName_nodeName ?_
    rcases (Option.orElse_eq_some _ _ _).mp hvalue with hvalue | ⟨-, hvalue⟩
    · exact valueOf?_ne_nil hvalue
    · exact valueOf?_ne_nil hvalue
  · obtain ⟨value, hvalue, rfl⟩ := Option.map_eq_some_iff.mp h
    exact isNodeName_nodeName (valueOf?_ne_nil hvalue)

/-! ### Links -/

variable {link : String} {target : Target}

/-- **A link that is read** is a key alone, or a text in which a key and a node are found. -/
theorem parse_cases (h : parse link = .ok target) :
    (isBareKey (unescaped link) = true ∧ target = ⟨some (.ofList (unescaped link)), none⟩)
      ∨ (isBareKey (unescaped link) = false ∧ ∃ found,
          target = ⟨(fileKey? (unescaped link)).map .ofList, (nodeIn? found).map .ofList⟩) := by
  cases bare : isBareKey (unescaped link) with
  | true => exact .inl ⟨rfl, Except.ok.inj (h.symm.trans (parse_of_isBareKey bare))⟩
  -- a link, read from its parts
  | false =>
    rw [parse] at h
    dsimp only at h
    rw [bare, if_neg (by decide)] at h
    obtain ⟨found, -, h⟩ := bind_eq_ok h
    exact .inr ⟨rfl, found, (Except.ok.inj h).symm⟩

/-- The key of a link that is read is one, unless a line end follows a key alone. -/
theorem fileKey_isKey_iff (h : parse link = .ok target) :
    (∀ text ∈ target.fileKey, IsKey text.toList)
      ↔ ¬ ∃ key, IsKey key ∧ unescaped link = key ++ ['\n'] := by
  constructor
  -- a bare key with a line end is kept with it
  · rintro keys ⟨key, hkey, hlink⟩
    have bare : isBareKey (unescaped link) = true := isBareKey_iff.mpr ⟨key, hkey, .inr hlink⟩
    obtain rfl := Except.ok.inj (h.symm.trans (parse_of_isBareKey bare))
    have hall := (keys _ rfl).chars
    rw [String.toList_ofList, hlink] at hall
    exact absurd (hall '\n' (List.mem_append_right _ List.mem_cons_self)) (by decide)
  -- else the key is made of its characters only
  · rintro ended text htext
    rcases parse_cases h with ⟨bare, rfl⟩ | ⟨-, found, rfl⟩
    · obtain rfl := Option.some.inj htext
      obtain ⟨key, hkey, hlink | hlink⟩ := isBareKey_iff.mp bare
      · rwa [String.toList_ofList, hlink]
      · exact absurd ⟨key, hkey, hlink⟩ ended
    · obtain ⟨key, hkey, rfl⟩ := Option.map_eq_some_iff.mp htext
      rw [String.toList_ofList]
      exact fileKey?_isKey hkey

/-- The node of a link that is read is named as documents name it. -/
theorem nodeId_isNodeName (h : parse link = .ok target) :
    ∀ id ∈ target.nodeId, IsNodeName id.toList := by
  intro id hid
  rcases parse_cases h with ⟨-, rfl⟩ | ⟨-, found, rfl⟩
  · cases hid
  · obtain ⟨name, hname, rfl⟩ := Option.map_eq_some_iff.mp hid
    rw [String.toList_ofList]
    exact nodeIn?_isNodeName hname

end Link

/-! ### The addresses of requests -/

/-- **The address of a file**, or that of its nodes when one is named. -/
def addressOf (baseUrl key : String) (nodeId : Option String) : String :=
  baseUrl ++ "/files/" ++ key ++ if nodeId.isSome then "/nodes" else ""

/-- A call asks at the address of its file. -/
theorem Call.url_toFetch (client : Client) (key : String) (nodeId : Option String) :
    ((Call.toFetch key nodeId).request client).url = addressOf client.baseUrl key nodeId := by
  cases nodeId with
  | none => simp [Call.toFetch, Call.request, addressOf, String.append_assoc]
  | some id => simp [Call.toFetch, Call.request, addressOf, String.append_assoc]

/-- **Everything that fetching asks for is at the address of the file.** -/
theorem Client.fetch_addresses (client : Client) (key : String) (nodeId : Option String)
    (start : Session) :
    ∃ requests, ((client.fetch key nodeId).runFrom start).2.requests = start.requests ++ requests
      ∧ ∀ request ∈ requests, request.url = addressOf client.baseUrl key nodeId := by
  obtain ⟨n, hrequests⟩ := client.fetch_requests key nodeId start
  refine ⟨_, hrequests, fun request hrequest => ?_⟩
  rw [List.eq_of_mem_replicate hrequest, Call.url_toFetch]

/-- **Everything that a conversion asks for** is at the address of the file that the link names. -/
theorem convertLink_addresses {link : String} {target : Link.Target}
    (h : Link.parse link = .ok target) (settings : Settings) (token : String)
    (nodeId : Option String) (start : Session) :
    ∃ requests, ((convertLink settings link token nodeId).runFrom start).2.requests
        = start.requests ++ requests
      ∧ ∀ request ∈ requests, ∃ key ∈ target.fileKey,
          request.url = addressOf settings.baseUrl key (given? nodeId <|> target.nodeId) := by
  obtain ⟨requests, hrequests, asked⟩ := convertLink_asks settings link token nodeId start
  refine ⟨requests, hrequests, fun request hrequest => ?_⟩
  -- only a link with a file key is followed
  obtain ⟨key, inLink, own, hparse, -, rfl⟩ := asked request hrequest
  obtain rfl := Except.ok.inj (h.symm.trans hparse)
  exact ⟨key, rfl, Call.url_toFetch _ key _⟩

namespace Link

/-- **The names in a link are in order, but for a line end.** The node of a link that is read is named
as documents name it. Its key is one, unless the link is a key alone with a line end after it, which
is then a part of the key. All requests that fetch what the link names, by any client, are at the
address that is built from the key and nothing else. -/
theorem target_in_order_iff {link : String} {target : Target} (h : parse link = .ok target) :
    (∀ id ∈ target.nodeId, IsNodeName id.toList)
    ∧ ((∀ text ∈ target.fileKey, IsKey text.toList)
      ↔ ¬ ∃ key : FileKey, unescaped link = key.text.toList ++ ['\n'])
    ∧ (∀ key : FileKey, unescaped link = key.text.toList ++ ['\n'] →
        target = ⟨some (key.text ++ "\n"), none⟩)
    ∧ (∀ text ∈ target.fileKey, ∀ (client : Client) (nodeId : Option String) (start : Session),
        ∃ requests, ((client.fetch text nodeId).runFrom start).2.requests = start.requests ++ requests
          ∧ ∀ request ∈ requests, request.url = addressOf client.baseUrl text nodeId)
    ∧ ∀ (settings : Settings) (token : String) (nodeId : Option String) (start : Session),
        ∃ requests, ((convertLink settings link token nodeId).runFrom start).2.requests
            = start.requests ++ requests
          ∧ ∀ request ∈ requests, ∃ text ∈ target.fileKey,
              request.url = addressOf settings.baseUrl text (given? nodeId <|> target.nodeId) := by
  refine ⟨nodeId_isNodeName h, ?_, ?_, fun text _ client => client.fetch_addresses text,
    convertLink_addresses h⟩
  -- the key with the line end is one of characters
  · rw [fileKey_isKey_iff h]
    refine not_congr ⟨?_, ?_⟩
    · rintro ⟨cs, hkey, hlink⟩
      obtain ⟨key, rfl⟩ := hkey.exists_fileKey
      exact ⟨key, hlink⟩
    -- and a key as a value is such a text
    · rintro ⟨key, hlink⟩
      exact ⟨key.text.toList, key.isKey, hlink⟩
  · intro key hlink
    have bare : isBareKey (unescaped link) = true :=
      isBareKey_iff.mpr ⟨key.text.toList, key.isKey, .inr hlink⟩
    obtain rfl := Except.ok.inj (h.symm.trans (parse_of_isBareKey bare))
    -- the key that is found is the whole text
    have hended : String.ofList (unescaped link) = key.text ++ "\n" := by
      rw [hlink, String.ofList_append, String.ofList_toList]
    rw [hended]

/-- A link to a node of a design. -/
def cardLink : String := "https://www.figma.com/design/AbC123/Card?node-id=1-2"

/-- It names a key and a node, and the node is asked for in the file. -/
theorem cardLink_in_order : parse cardLink = .ok ⟨some "AbC123", some "1:2"⟩
    ∧ IsKey "AbC123".toList ∧ IsNodeName "1:2".toList
    ∧ ∃ requests,
      ((convertLink {} cardLink "token" none).runFrom (.fresh fun _ => .unanswered)).2.requests
        = requests
      ∧ ∀ request ∈ requests, request.url = "https://api.figma.com/v1/files/AbC123/nodes" := by
  have hparse : parse cardLink = .ok ⟨some "AbC123", some "1:2"⟩ :=
    eq_ok_of_toOption (by decide +kernel)
  have unended : '\n' ∉ unescaped cardLink := by decide +kernel
  obtain ⟨node, key, -, -, requests⟩ := target_in_order_iff hparse
  refine ⟨hparse, key.mpr ?_ _ rfl, node _ rfl, ?_⟩
  -- the text of the link has no line end
  · rintro ⟨key, hlink⟩
    exact unended (hlink ▸ List.mem_append_right _ List.mem_cons_self)
  -- and what is asked for is the nodes of the file
  · obtain ⟨requests, hrequests, haddresses⟩ :=
      requests {} "token" none (.fresh fun _ => .unanswered)
    refine ⟨requests, hrequests, fun request hrequest => ?_⟩
    obtain ⟨text, htext, hurl⟩ := haddresses request hrequest
    obtain rfl := Option.some.inj htext
    rw [hurl]
    rfl

/-- **A line end gets into the address**: the key alone has one after it, which is escaped so that
it is not left out with the blanks at the end. -/
theorem endedKey_not_in_order : parse "AbC123%0A" = .ok ⟨some "AbC123\n", none⟩
    ∧ ¬ IsKey "AbC123\n".toList
    ∧ ((convertLink {} "AbC123%0A" "token" none).runFrom
          (.fresh fun _ => .replied ⟨404, .ok .null⟩)).2.requests.map (·.url)
        = ["https://api.figma.com/v1/files/AbC123\n"] := by
  refine ⟨eq_ok_of_toOption (by decide +kernel), fun key => ?_, by decide +kernel⟩
  exact absurd (key.chars '\n' (by decide)) (by decide)

end Link

end Mockup
