/-
  SceneMarkup/Proofs/Markup/Merged.lean --- markup up to how its texts are cut.

  WHAT THIS FILE IS FOR.  Two texts side by side look like one text, and a line break in a
  text looks the same whether it is a line feed, a carriage return, or both.  `merged` is
  markup without these differences.  It leaves all tags as they are.
-/
import SceneMarkup.Markup.Tree

set_option autoImplicit false

namespace SceneMarkup.Markup

/-! ## Tags -/

mutual

/-- The tags of a piece of markup in the order of the text: an element comes before its children. -/
def tags : Markup → List Tag
  | .text _ => []
  | .element tag children => tag :: tagsIn children

/-- The tags of some pieces of markup, in order. -/
def tagsIn : List Markup → List Tag
  | [] => []
  | m :: rest => m.tags ++ tagsIn rest

end

/-! ## Merging -/

/-- Characters with every line break as one line feed. -/
def unifyBreaks : List Char → List Char
  | [] => []
  | '\r' :: '\n' :: rest => '\n' :: unifyBreaks rest
  | c :: rest => (if c = '\r' then '\n' else c) :: unifyBreaks rest

/-- A text in front of some markup, in one piece with a text that is there already. -/
def prependText (cs : List Char) : List Markup → List Markup
  | .text content :: rest => .text (String.ofList (cs ++ content.toList)) :: rest
  | others => .text (String.ofList cs) :: others

mutual

/-- A piece of markup in front of some that are merged. -/
def merge : Markup → List Markup → List Markup
  | .text content, others => prependText (unifyBreaks content.toList) others
  | .element tag children, others => .element tag (mergeIn children []) :: others

/-- Some pieces of markup in front of others that are merged. -/
def mergeIn : List Markup → List Markup → List Markup
  | [], others => others
  | m :: rest, others => m.merge (mergeIn rest others)

end

/-- Markup with no two texts side by side, and with every line break as a line feed. Breaks are told
in each text by itself: a carriage return that ends one text and a line feed that begins the next
are two. -/
def merged (roots : List Markup) : List Markup := mergeIn roots []

example : merged [.text "a\r\nb", .text "\r", .text "\nc"] = [.text "a\nb\n\nc"] := by rfl

theorem prependText_append (first : List Char) {second : List Char} (others : List Markup) :
    prependText first (prependText second others) = prependText (first ++ second) others := by
  cases others with
  | nil => simp [prependText]
  | cons m rest => cases m <;> simp [prependText]

theorem tagsIn_prependText (cs : List Char) (others : List Markup) :
    tagsIn (prependText cs others) = tagsIn others := by
  cases others with
  | nil => rfl
  | cons m rest => cases m <;> rfl

mutual

theorem tagsIn_merge : ∀ (m : Markup) (others : List Markup),
    tagsIn (m.merge others) = m.tags ++ tagsIn others
  | .text _, others => tagsIn_prependText _ others
  | .element tag children, others => by
      rw [merge, tagsIn, tags, tags, tagsIn_mergeIn children [], tagsIn, List.append_nil]

theorem tagsIn_mergeIn : ∀ ms others : List Markup,
    tagsIn (mergeIn ms others) = tagsIn ms ++ tagsIn others
  | [], others => rfl
  | m :: rest, others => by
      rw [mergeIn, tagsIn_merge m, tagsIn_mergeIn rest others, tagsIn, List.append_assoc]

end

/-- Merging texts changes no tag and no order of tags. -/
theorem tagsIn_merged (roots : List Markup) : tagsIn (merged roots) = tagsIn roots := by
  rw [merged, tagsIn_mergeIn, tagsIn, List.append_nil]

end SceneMarkup.Markup
