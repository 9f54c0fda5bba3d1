/-
  SceneMarkup/Proofs/Markup/Entities.lean --- values with entities, and their quotes.

  WHAT THIS FILE IS FOR.  A value between double quotes ends at the first of them, and an
  entity in it stands for a character.  An escaped value has no quote of its own, so it is
  read whole, and it stands for the value that was escaped.
-/
import SceneMarkup.Proofs.Markup.Reader

set_option autoImplicit false

namespace SceneMarkup.Markup

/-! ## Entities -/

/-- What a text with entities stands for. In an entity, what was read of it is given. -/
def decode? : Option (List Char) → List Char → Option (List Char)
  | none, [] => some []
  | none, c :: cs => if c = '&' then decode? (some []) cs else (decode? none cs).map (c :: ·)
  | some _, [] => none
  | some entity, c :: cs =>
      if c = ';' then (entity? entity).bind fun d => (decode? none cs).map (d :: ·)
      else decode? (some (entity ++ [c])) cs

theorem decode?_attributeChar (c : Char) (cs : List Char) :
    decode? none (attributeChar c ++ cs) = (decode? none cs).map (c :: ·) := by
  unfold attributeChar
  split
  case h_5 hamp _ _ _ => exact if_neg hamp
  all_goals rfl

/-- An escaped value stands for the value. -/
theorem decode?_escaped (cs : List Char) : decode? none (cs.flatMap attributeChar) = some cs := by
  induction cs with
  | nil => rfl
  | cons c cs ih => rw [List.flatMap_cons, decode?_attributeChar, ih, Option.map_some]

theorem ne_of_mem_attributeChar {c d : Char} (h : d ∈ attributeChar c) :
    d ≠ '"' ∧ d ≠ '<' ∧ d ≠ '>' := by
  have hall : (attributeChar c).all (fun d => d ≠ '"' ∧ d ≠ '<' ∧ d ≠ '>') = true := by
    unfold attributeChar
    split
    case h_5 hquote hless hgreater =>
      simpa using And.intro hquote (And.intro hless hgreater)
    all_goals rfl
  exact of_decide_eq_true (List.all_eq_true.1 hall d h)

/-- An escaped value has no quotes and no brackets. -/
theorem ne_of_mem_escaped {cs : List Char} {d : Char} (h : d ∈ cs.flatMap attributeChar) :
    d ≠ '"' ∧ d ≠ '<' ∧ d ≠ '>' := by
  obtain ⟨_, _, hd⟩ := List.mem_flatMap.1 h
  exact ne_of_mem_attributeChar hd

/-! ## Quotes -/

/-- A text up to the first double quote, and what stands behind the quote. -/
def quoted? : List Char → Option (List Char × List Char)
  | [] => none
  | c :: cs =>
      if c = '"' then some ([], cs)
      else (quoted? cs).map fun (value, rest) => (c :: value, rest)

theorem quoted?_append {cs : List Char} (h : '"' ∉ cs) (after : List Char) :
    quoted? (cs ++ '"' :: after) = some (cs, after) := by
  induction cs with
  | nil => rfl
  | cons c cs ih =>
      rw [List.mem_cons, not_or] at h
      rw [List.cons_append, quoted?, if_neg (Ne.symm h.1), ih h.2, Option.map_some]

/-- What a value stands for that ends at the first double quote, and what stands behind the
quote. -/
def readValue? (cs : List Char) : Option (List Char × List Char) :=
  (quoted? cs).bind fun read => (decode? none read.1).map fun value => (value, read.2)

/-- An escaped value is read whole, as the value. -/
theorem readValue?_escaped (cs after : List Char) :
    readValue? (cs.flatMap attributeChar ++ '"' :: after) = some (cs, after) := by
  have hquote : '"' ∉ cs.flatMap attributeChar := fun hmem => (ne_of_mem_escaped hmem).1 rfl
  rw [readValue?, quoted?_append hquote, Option.bind_some, decode?_escaped, Option.map_some]

end SceneMarkup.Markup
