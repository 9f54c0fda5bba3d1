/-
  SceneMarkup/Proofs/Style/Lexis.lean --- how far a style value reaches in a text.

  WHAT THIS FILE IS FOR.  A value ends at a semicolon that is in no quotes.  Whether it is
  in quotes is seen by going through the value one character at a time, and depends on
  what a backslash and a line break mean between quotes.  A value that is `Closed` is
  followed by nothing of its own, and so can be found again in front of any text.
-/
import SceneMarkup.Style.Value

set_option autoImplicit false

namespace SceneMarkup.Style

/-! ## Going through a value -/

/-- Whether a character breaks a line. -/
def isLineBreak (c : Char) : Bool := c == '\n' || c == '\r' || c == '\x0c'

/-- Whether a character ends a value or a rule when it is in no quotes. -/
def isDelimiter (c : Char) : Bool := c == ';' || c == '\x7b' || c == '\x7d'

/-- Where in a value a reader is. -/
inductive Place where
  /-- in no quotes -/
  | outside
  /-- between quotes -/
  | inside
  /-- between quotes, behind a backslash that takes the next character -/
  | escaped
  deriving DecidableEq, Repr, Inhabited

/-- What stands between quotes. -/
structure Lexis where
  /-- whether a backslash takes the next character -/
  escapes : Bool
  /-- whether lines may be broken -/
  breaks : Bool
  deriving DecidableEq, Repr, Inhabited

namespace Lexis

variable {lexis : Lexis}

/-- Where a reader is after one more character of the value, if the value goes on. -/
def step (lexis : Lexis) (place : Place) (c : Char) : Option Place :=
  match place with
  | .outside =>
      if c = '"' then some .inside else if isDelimiter c then none else some .outside
  | .inside =>
      if c = '"' then some .outside
      else if lexis.escapes && c == '\\' then some .escaped
      else if !lexis.breaks && isLineBreak c then none
      else some .inside
  | .escaped => some .inside

/-- Where a reader is after some more characters of the value. -/
def read (lexis : Lexis) (place : Place) (cs : List Char) : Option Place :=
  cs.foldlM lexis.step place

/-- The whole text is one value: it is in no quotes at its end and was not over before. -/
def Closed (lexis : Lexis) (text : String) : Prop :=
  lexis.read .outside text.toList = some .outside

theorem read_nil (place : Place) : lexis.read place [] = some place := rfl

theorem read_cons (place : Place) (c : Char) (cs : List Char) :
    lexis.read place (c :: cs) = (lexis.step place c).bind fun place => lexis.read place cs :=
  List.foldlM_cons

theorem read_append (place : Place) (cs ds : List Char) :
    lexis.read place (cs ++ ds) = (lexis.read place cs).bind fun place => lexis.read place ds :=
  List.foldlM_append

theorem step_outside_semicolon : lexis.step .outside ';' = none := rfl

/-- A value that is followed by a semicolon is read in one way only. -/
theorem eq_of_append_semicolon {place : Place} {cs ds rest others : List Char}
    (hcs : lexis.read place cs = some .outside) (hds : lexis.read place ds = some .outside)
    (h : cs ++ ';' :: rest = ds ++ ';' :: others) : cs = ds ∧ rest = others := by
  induction cs generalizing place ds with
  | nil =>
      rw [read_nil, Option.some.injEq] at hcs
      subst hcs
      cases ds with
      | nil => exact ⟨rfl, (List.cons.inj h).2⟩
      | cons d ds =>
          have hd : d = ';' := (List.cons.inj h).1.symm
          rw [hd, read_cons, step_outside_semicolon] at hds
          simp at hds
  | cons c cs ih =>
      cases ds with
      | nil =>
          rw [read_nil, Option.some.injEq] at hds
          subst hds
          have hc : c = ';' := (List.cons.inj h).1
          rw [hc, read_cons, step_outside_semicolon] at hcs
          simp at hcs
      | cons d ds =>
          obtain ⟨rfl, htail⟩ := List.cons.inj h
          rw [read_cons] at hcs hds
          cases hstep : lexis.step place c with
          | none => rw [hstep] at hcs; simp at hcs
          | some next =>
              rw [hstep] at hcs hds
              obtain ⟨rfl, hrest⟩ := ih hcs hds htail
              exact ⟨rfl, hrest⟩

end Lexis

/-! ## Names -/

/-- Whether a character may stand in the name of a property or of a class. -/
def isNameChar (c : Char) : Bool := c.isAlphanum || c == '-'

/-- Letters, digits and hyphens, at least one of them. -/
def IsName (text : String) : Prop := text ≠ "" ∧ text.toList.all isNameChar = true

instance (text : String) : Decidable (IsName text) :=
  inferInstanceAs (Decidable (text ≠ "" ∧ text.toList.all isNameChar = true))

theorem IsName.not_mem {text : String} (h : IsName text) {c : Char} (hc : isNameChar c = false) :
    c ∉ text.toList := by
  intro hmem
  rw [List.all_eq_true.1 h.2 c hmem] at hc
  simp at hc

/-- A name has a first character. -/
theorem IsName.exists_cons {text : String} (h : IsName text) :
    ∃ c cs, text.toList = c :: cs ∧ isNameChar c = true ∧ ∀ d ∈ cs, isNameChar d = true := by
  obtain ⟨hne, hall⟩ := h
  rw [List.all_eq_true] at hall
  obtain ⟨c, cs, hchars⟩ : ∃ c cs, text.toList = c :: cs :=
    List.exists_cons_of_ne_nil fun hnil => hne (String.toList_inj.1 hnil)
  rw [hchars, List.forall_mem_cons] at hall
  exact ⟨c, cs, hchars, hall.1, hall.2⟩

theorem ne_of_isNameChar {c d : Char} (hc : isNameChar c = true) (hd : isNameChar d = false) :
    c ≠ d := by
  rintro rfl
  rw [hd] at hc
  cases hc

/-! ## Plain text -/

/-- Whether a character means nothing but itself, in quotes or not. -/
def isPlain (c : Char) : Bool :=
  c != '"' && c != '\\' && !isDelimiter c && !isLineBreak c

/-- Text without quotes, backslashes, delimiters and line breaks. -/
def Plain (text : String) : Prop := ∀ c ∈ text.toList, isPlain c = true

instance (text : String) : Decidable (Plain text) :=
  decidable_of_iff (text.toList.all isPlain = true) List.all_eq_true

theorem Plain.append {s t : String} (hs : Plain s) (ht : Plain t) : Plain (s ++ t) := by
  rw [Plain, String.toList_append, List.forall_mem_append]
  exact ⟨hs, ht⟩

/-- What holds of parts holds of the parts with a separator between them. -/
theorem intercalate_induction {motive : String → Prop} (hempty : motive "")
    (happend : ∀ s t, motive s → motive t → motive (s ++ t)) {separator : String}
    (hseparator : motive separator) {texts : List String} (h : ∀ text ∈ texts, motive text) :
    motive (String.intercalate separator texts) := by
  induction texts with
  | nil => rw [String.intercalate_nil]; exact hempty
  | cons text rest ih =>
      rw [List.forall_mem_cons] at h
      cases rest with
      | nil => rw [String.intercalate_singleton]; exact h.1
      | cons next rest =>
          rw [String.intercalate_cons_cons]
          exact happend _ _ (happend _ _ h.1 hseparator) (ih h.2)

theorem plain_intercalate {separator : String} (hseparator : Plain separator)
    {texts : List String} (h : ∀ text ∈ texts, Plain text) :
    Plain (String.intercalate separator texts) :=
  intercalate_induction (by decide) (fun _ _ hs ht => hs.append ht) hseparator h

namespace Lexis

variable {lexis : Lexis}

theorem step_plain {place : Place} (hplace : place ≠ .escaped) {c : Char}
    (h : isPlain c = true) : lexis.step place c = some place := by
  simp only [isPlain, Bool.and_eq_true, bne_iff_ne, ne_eq, Bool.not_eq_true'] at h
  obtain ⟨⟨⟨hquote, hbackslash⟩, hdelimiter⟩, hbreak⟩ := h
  cases place with
  | outside => simp [step, hquote, hdelimiter]
  | inside => simp [step, hquote, hbackslash, hbreak]
  | escaped => exact absurd rfl hplace

/-- Plain text leaves a reader where it is. -/
theorem read_plain {place : Place} (hplace : place ≠ .escaped) {cs : List Char}
    (h : ∀ c ∈ cs, isPlain c = true) : lexis.read place cs = some place := by
  induction cs with
  | nil => rfl
  | cons c cs ih =>
      rw [List.forall_mem_cons] at h
      rw [read_cons, step_plain hplace h.1]
      exact ih h.2

theorem closed_of_plain {text : String} (h : Plain text) : lexis.Closed text :=
  read_plain (by decide) h

theorem Closed.append {s t : String} (hs : lexis.Closed s) (ht : lexis.Closed t) :
    lexis.Closed (s ++ t) := by
  rw [Closed, String.toList_append, read_append, hs, Option.bind_some]
  exact ht

theorem closed_intercalate {separator : String} (hseparator : lexis.Closed separator)
    {texts : List String} (h : ∀ text ∈ texts, lexis.Closed text) :
    lexis.Closed (String.intercalate separator texts) :=
  intercalate_induction (closed_of_plain (by decide)) (fun _ _ hs ht => hs.append ht) hseparator h

end Lexis

end SceneMarkup.Style
