/-
  SceneMarkup/Proofs/DesignLink/Link.lean --- what is read from a link to a design file.

  WHAT THIS FILE IS FOR.  A link that is put together from its parts gives its key and its
  id back, however the colons of the id are written and wherever it stands among the
  parameters.
-/
import SceneMarkup.Pipeline
import SceneMarkup.Proofs.DesignLink.Id

set_option autoImplicit false

namespace SceneMarkup.DesignLink

/-! ## Links -/

/-- A link to a node of a design, by its parts. What stands behind the id may be anything. -/
structure Link where
  host : List Char
  marker : Marker
  key : List Char
  title? : Option (List Char)
  before : List (List Char)
  id : WrittenId
  after : List (List Char)
  fragment? : Option (List Char)
  host_free : ∀ marker : Marker, ¬ marker.text <:+: host
  host_path : '?' ∉ host
  key_ne_nil : key ≠ []
  key_alphanum : ∀ c ∈ key, c.isAlphanum = true
  title_path : ∀ title ∈ title?, '?' ∉ title
  before_other : ∀ parameter ∈ before, '&' ∉ parameter ∧ ¬ idName <+: parameter

namespace Link

/-- What stands between the key and the query. -/
def title (link : Link) : List Char := link.title?.elim [] ('/' :: ·)

def fragment (link : Link) : List Char := link.fragment?.elim [] ('#' :: ·)

/-- The parameters and the fragment. -/
def query (link : Link) : List Char :=
  List.intercalate ['&'] (link.before ++ (idName ++ link.id.text) :: link.after) ++ link.fragment

def text (link : Link) : String :=
  String.ofList (link.host ++ (link.marker.text ++ (link.key ++ (link.title ++ '?' :: link.query))))

theorem head_fragment (link : Link) : ∀ c ∈ link.fragment.head?, c = '#' := by
  rw [fragment]
  cases link.fragment? with
  | none => exact fun _ hc => nomatch hc
  | some fragment => exact fun _ hc => (Option.some.inj hc).symm

theorem head_behind_key (link : Link) :
    ∀ c ∈ (link.title ++ '?' :: link.query).head?, c.isAlphanum = false := by
  rw [title]
  cases link.title? with
  | none => rintro _ ⟨⟩; rfl
  | some title => rintro _ ⟨⟩; rfl

theorem not_mem_path (link : Link) :
    '?' ∉ link.host ++ (link.marker.text ++ (link.key ++ link.title)) := by
  have hmarker : '?' ∉ link.marker.text := by
    cases link.marker <;> decide
  have hkey : '?' ∉ link.key := fun h => ne_of_isAlphanum (link.key_alphanum _ h) rfl rfl
  have htitle : '?' ∉ link.title := by
    rw [title]
    cases htitle : link.title? with
    | none => exact List.not_mem_nil
    | some title =>
        rw [Option.elim_some, List.mem_cons, not_or]
        exact ⟨by decide, link.title_path title htitle⟩
  simp only [List.mem_append, not_or]
  exact ⟨link.host_path, hmarker, hkey, htitle⟩

theorem keyIn?_text (link : Link) : keyIn? link.text.toList = some link.key := by
  rw [text, String.toList_ofList]
  exact keyIn?_eq_some_iff.2 ⟨link.host, _, firstKeyAt_of_host link.host_free link.marker
    link.key_ne_nil link.key_alphanum link.head_behind_key⟩

theorem idIn?_text (link : Link) : idIn? link.text.toList = some link.id.joined := by
  have hpath : link.text.toList =
      (link.host ++ (link.marker.text ++ (link.key ++ link.title))) ++ '?' :: link.query := by
    rw [text, String.toList_ofList]
    simp only [List.append_assoc]
  have hvalue := findSome?_idParameter? link.before_other link.id link.after link.head_fragment
  rw [idIn?, hpath, afterMark?_append link.not_mem_path, Option.bind_eq_bind, Option.bind_some,
    query, hvalue, Option.bind_some, link.id.decodeId_text]
  rfl

end Link

/-- A text has a key exactly if it can be cut around one, and its key is the first of those. -/
theorem fileKey?_eq_some_iff {link key : String} :
    fileKey? link = some key ↔
      ∃ before after, FirstKeyAt link.toList before key.toList after := by
  rw [fileKey?, Option.map_eq_some_iff, ← keyIn?_eq_some_iff]
  constructor
  · rintro ⟨found, hfound, rfl⟩
    rw [hfound, String.toList_ofList]
  · intro h
    exact ⟨key.toList, h, String.ofList_toList⟩

/-- Of a link to a node the file is compiled, and of that the node alone, unless the options name
one. -/
theorem runLink_text {m : Type → Type} [Monad m] (c : Collaborators m) (options : Options)
    (link : Link) :
    c.runLink options link.text =
      c.run { options with rootNode := options.rootNode <|> some (String.ofList link.id.joined) }
        (String.ofList link.key) := by
  rw [Collaborators.runLink, fileKey?, link.keyIn?_text, nodeId?, link.idIn?_text]
  rfl

/-- Every link gives back the key and the id that it was written with, and on any text at all the
key is the first one that stands behind a marker. -/
theorem links_decoded :
    (∀ link : Link,
      fileKey? link.text = some (String.ofList link.key) ∧
      nodeId? link.text = some (String.ofList link.id.joined)) ∧
    ∀ text key : String, fileKey? text = some key ↔
      ∃ before after, FirstKeyAt text.toList before key.toList after := by
  refine ⟨fun link => ⟨?_, ?_⟩, fun text key => fileKey?_eq_some_iff⟩
  · rw [fileKey?, link.keyIn?_text, Option.map_some]
  · rw [nodeId?, link.idIn?_text, Option.map_some]

/-- A link with half a marker in front of its own, an id that spells its colons in three ways, a
parameter whose name only begins like that of the id, and more ids behind it. -/
def nearMisses : Link where
  host := "figma.com/desi".toList
  marker := .file
  key := "k3Y".toList
  title? := some "a&node-id=0".toList
  before := ["node-ids=4".toList]
  id := ⟨"I1".toList, [(.upperCode, "3A".toList), (.hyphen, "3".toList), (.lowerCode, "20".toList)],
    by decide, by simp, by simp⟩
  after := ["node-id=7".toList]
  fragment? := some "node-id=9".toList
  host_free marker := by cases marker <;> decide +kernel
  host_path := by decide
  key_ne_nil := by decide
  key_alphanum := by simp
  title_path := by decide
  before_other := by decide

theorem links_decoded_of_near_misses :
    nearMisses.text = "figma.com/desifigma.com/file/k3Y/a&node-id=0" ++
      "?node-ids=4&node-id=I1%3A3A-3%3a20&node-id=7#node-id=9" ∧
    fileKey? nearMisses.text = some "k3Y" ∧ nodeId? nearMisses.text = some "I1:3A:3:20" := by
  have htext : nearMisses.text = "figma.com/desifigma.com/file/k3Y/a&node-id=0" ++
      "?node-ids=4&node-id=I1%3A3A-3%3a20&node-id=7#node-id=9" := by decide +kernel
  have hkey : String.ofList nearMisses.key = "k3Y" := String.ofList_toList
  have hid : String.ofList nearMisses.id.joined = "I1:3A:3:20" := by decide +kernel
  obtain ⟨hfile, hnode⟩ := links_decoded.1 nearMisses
  rw [hkey] at hfile
  rw [hid] at hnode
  exact ⟨htext, hfile, hnode⟩

end SceneMarkup.DesignLink
