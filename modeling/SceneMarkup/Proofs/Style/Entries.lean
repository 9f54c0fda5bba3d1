/-
  SceneMarkup/Proofs/Style/Entries.lean --- a style value as the entries that it lists.

  WHAT THIS FILE IS FOR.  Several shadows or blurs are written into one value, with a mark
  between them.  A mark in parentheses belongs to an entry, as in `rgba(0, 0, 0, 0.5)`.  So
  a reader counts parentheses, and finds the entries again if each of them closes all that
  it opens.
-/
import SceneMarkup.Proofs.Style.Value

set_option autoImplicit false

namespace SceneMarkup.Style

/-! ## Parts -/

/-- How many parentheses are open behind a character. -/
def depthAfter (depth : Nat) (c : Char) : Nat :=
  if c = '(' then depth + 1 else if c = ')' then depth - 1 else depth

/-- Some characters in front of the first of some parts. -/
def beginFirst (cs : List Char) : List (List Char) → List (List Char)
  | [] => [cs]
  | part :: others => (cs ++ part) :: others

/-- The parts of a text between the marks that are in no parentheses. -/
def topParts (mark : Char) (depth : Nat) : List Char → List (List Char)
  | [] => [[]]
  | c :: rest =>
      if depth = 0 ∧ c = mark then [] :: topParts mark 0 rest
      else beginFirst [c] (topParts mark (depthAfter depth c) rest)

/-- The entries of a value, without the blanks in front of them. -/
def readEntries (mark : Char) (value : String) : List String :=
  (topParts mark 0 value.toList).map fun part => String.ofList (part.dropWhile (· == ' '))

theorem beginFirst_append (cs ds : List Char) (parts : List (List Char)) :
    beginFirst (cs ++ ds) parts = beginFirst cs (beginFirst ds parts) := by
  cases parts with
  | nil => rfl
  | cons part others => rw [beginFirst, beginFirst, beginFirst, List.append_assoc]

theorem topParts_mark (mark : Char) (rest : List Char) :
    topParts mark 0 (mark :: rest) = [] :: topParts mark 0 rest := by
  rw [topParts, if_pos ⟨rfl, rfl⟩]

theorem exists_topParts (mark : Char) (depth : Nat) (cs : List Char) :
    ∃ part others, topParts mark depth cs = part :: others := by
  cases cs with
  | nil => exact ⟨[], [], rfl⟩
  | cons c rest =>
      rw [topParts]
      split
      · exact ⟨[], _, rfl⟩
      · cases topParts mark (depthAfter depth c) rest with
        | nil => exact ⟨[c], [], rfl⟩
        | cons part others => exact ⟨[c] ++ part, others, rfl⟩

/-! ## Unbroken text -/

/-- A text that belongs to one part, together with the beginning of whatever stands behind it. -/
def Unbroken (mark : Char) (cs : List Char) : Prop :=
  ∀ rest, topParts mark 0 (cs ++ rest) = beginFirst cs (topParts mark 0 rest)

variable {mark : Char}

theorem unbroken_nil : Unbroken mark [] := by
  intro rest
  obtain ⟨part, others, hparts⟩ := exists_topParts mark 0 rest
  rw [List.nil_append, hparts]
  rfl

theorem Unbroken.append {cs ds : List Char} (hcs : Unbroken mark cs) (hds : Unbroken mark ds) :
    Unbroken mark (cs ++ ds) := by
  intro rest
  rw [List.append_assoc, hcs, hds, beginFirst_append]

theorem unbroken_singleton {c : Char} (hmark : c ≠ mark) (hopen : c ≠ '(') (hclose : c ≠ ')') :
    Unbroken mark [c] := by
  intro rest
  have hdepth : depthAfter 0 c = 0 := by rw [depthAfter, if_neg hopen, if_neg hclose]
  rw [List.singleton_append, topParts, if_neg fun h => hmark h.2, hdepth]

/-- Text without marks and parentheses is unbroken. -/
theorem unbroken_of_forall {cs : List Char} (h : ∀ c ∈ cs, c ≠ mark ∧ c ≠ '(' ∧ c ≠ ')') :
    Unbroken mark cs := by
  induction cs with
  | nil => exact unbroken_nil
  | cons c cs ih =>
      rw [List.forall_mem_cons] at h
      exact (unbroken_singleton h.1.1 h.1.2.1 h.1.2.2).append (ih h.2)

/-- What is in parentheses goes on to where they are closed, over all marks. -/
theorem topParts_inside {inner : List Char} (h : ∀ c ∈ inner, c ≠ '(' ∧ c ≠ ')')
    (rest : List Char) :
    topParts mark 1 (inner ++ ')' :: rest) =
      beginFirst (inner ++ [')']) (topParts mark 0 rest) := by
  induction inner with
  | nil => rw [List.nil_append, topParts, if_neg fun h => absurd h.1 Nat.one_ne_zero]; rfl
  | cons c inner ih =>
      rw [List.forall_mem_cons] at h
      have hdepth : depthAfter 1 c = 1 := by rw [depthAfter, if_neg h.1.1, if_neg h.1.2]
      rw [List.cons_append, topParts, if_neg fun h => absurd h.1 Nat.one_ne_zero, hdepth, ih h.2,
        ← beginFirst_append, List.singleton_append, List.cons_append]

theorem unbroken_parentheses (hmark : mark ≠ '(') {inner : List Char}
    (h : ∀ c ∈ inner, c ≠ '(' ∧ c ≠ ')') : Unbroken mark ('(' :: (inner ++ [')'])) := by
  intro rest
  rw [List.cons_append, topParts, if_neg fun h => hmark h.2.symm, List.append_assoc,
    List.singleton_append]
  exact (congrArg _ (topParts_inside h rest)).trans (beginFirst_append ['('] _ _).symm

/-! ## Entries -/

/-- A text that can be an entry of a value: it is unbroken and begins with no blank. -/
structure IsEntry (mark : Char) (text : String) : Prop where
  unbroken : Unbroken mark text.toList
  first : ∀ c ∈ text.toList.head?, c ≠ ' '

theorem IsEntry.dropWhile_eq {text : String} (h : IsEntry mark text) :
    text.toList.dropWhile (· == ' ') = text.toList := by
  cases hchars : text.toList with
  | nil => rfl
  | cons c cs =>
      have hfirst : c ≠ ' ' := h.first c (by rw [hchars]; rfl)
      rw [List.dropWhile_cons_of_neg (by simpa using hfirst)]

/-- Blanks in front of a value are left out. -/
theorem readEntries_blanks {blanks : List Char} (hblanks : ∀ c ∈ blanks, c = ' ')
    (hunbroken : Unbroken mark blanks) (value : String) :
    readEntries mark (String.ofList blanks ++ value) = readEntries mark value := by
  obtain ⟨part, others, hparts⟩ := exists_topParts mark 0 value.toList
  rw [readEntries, readEntries, String.toList_append, String.toList_ofList, hunbroken, hparts,
    beginFirst, List.map_cons, List.map_cons,
    List.dropWhile_append_of_pos fun c hc => by simp [hblanks c hc]]

/-- Entries with a mark and blanks between them are read as they are. -/
theorem readEntries_intercalate {blanks : List Char} (hblanks : ∀ c ∈ blanks, c = ' ')
    (hunbroken : Unbroken mark blanks) {entries : List String} (hne : entries ≠ [])
    (h : ∀ entry ∈ entries, IsEntry mark entry) :
    readEntries mark (String.intercalate (String.ofList (mark :: blanks)) entries) = entries := by
  induction entries with
  | nil => exact absurd rfl hne
  | cons entry rest ih =>
      rw [List.forall_mem_cons] at h
      have hself : String.ofList (entry.toList.dropWhile (· == ' ')) = entry := by
        rw [h.1.dropWhile_eq, String.ofList_toList]
      cases rest with
      | nil =>
          have hparts := h.1.unbroken []
          rw [List.append_nil] at hparts
          rw [String.intercalate_singleton, readEntries, hparts, topParts, beginFirst,
            List.append_nil, List.map_singleton, hself]
      | cons next rest =>
          have hrest := ih (by simp) h.2
          rw [← readEntries_blanks hblanks hunbroken] at hrest
          have hchars : (String.intercalate (String.ofList (mark :: blanks))
              (entry :: next :: rest)).toList = entry.toList ++ mark ::
                (String.ofList blanks ++ String.intercalate (String.ofList (mark :: blanks))
                  (next :: rest)).toList := by
            simp [String.intercalate_cons_cons]
          rw [readEntries, hchars, h.1.unbroken, topParts_mark, beginFirst, List.append_nil,
            List.map_cons, hself]
          exact congrArg (entry :: ·) hrest

/-! ## Shadows and blurs -/

theorem ne_parentheses_of_isNumberChar {c : Char} (h : isNumberChar c = true) :
    c ≠ '(' ∧ c ≠ ')' :=
  ⟨ne_of_isNumberChar h (by decide), ne_of_isNumberChar h (by decide)⟩

theorem unbroken_px (hmark : isNumberChar mark = false) (x : Float) :
    Unbroken mark (px x).toList :=
  unbroken_of_forall fun _ hc =>
    have hnumber := isNumberChar_of_mem_px hc
    ⟨ne_of_isNumberChar hnumber hmark, ne_parentheses_of_isNumberChar hnumber⟩

/-- A length begins with a character of its number. -/
theorem exists_px_cons (x : Float) : ∃ c cs, (px x).toList = c :: cs ∧ c ≠ ' ' := by
  cases hchars : (px x).toList with
  | nil => simp [px] at hchars
  | cons c cs =>
      have hnumber : isNumberChar c = true :=
        isNumberChar_of_mem_px (x := x) (by rw [hchars]; exact List.mem_cons_self)
      exact ⟨c, cs, rfl, ne_of_isNumberChar hnumber (by decide)⟩

theorem unbroken_blank : Unbroken ',' " ".toList :=
  unbroken_singleton (by decide) (by decide) (by decide)

/-- The commas of a color are in its parentheses. -/
theorem unbroken_css (color : Color) : Unbroken ',' color.css.toList := by
  rw [Rgba.css]
  split
  · refine unbroken_of_forall fun c hc => ?_
    rcases mem_hex hc with rfl | hnumber
    · decide
    · exact ⟨ne_of_isNumberChar hnumber (by decide), ne_parentheses_of_isNumberChar hnumber⟩
  · have hcomma : ∀ c ∈ ", ".toList, c ≠ '(' ∧ c ≠ ')' := by simp
    have hname : Unbroken ',' "rgba".toList := unbroken_of_forall (by simp)
    have hinner : ∀ c ∈ (toString (Rgba.byteOf color.r) ++ ", " ++
        toString (Rgba.byteOf color.g) ++ ", " ++ toString (Rgba.byteOf color.b) ++ ", " ++
        Decimal.numberText (Decimal.roundHundredth (clampUnit color.a))).toList,
        c ≠ '(' ∧ c ≠ ')' := by
      simp only [String.toList_append, List.forall_mem_append]
      have hbyte : ∀ n : Nat, ∀ c ∈ (toString n).toList, c ≠ '(' ∧ c ≠ ')' := fun _ _ hc =>
        ne_parentheses_of_isNumberChar (isNumberChar_of_mem_toString_nat hc)
      exact ⟨⟨⟨⟨⟨⟨hbyte _, hcomma⟩, hbyte _⟩, hcomma⟩, hbyte _⟩, hcomma⟩, fun _ hc =>
        ne_parentheses_of_isNumberChar (isNumberChar_of_mem_numberText hc)⟩
    have hopen : "rgba(".toList = "rgba".toList ++ ['('] := rfl
    have hclose : ")".toList = [')'] := rfl
    have hunbroken := hname.append (unbroken_parentheses (by decide) hinner)
    simpa only [String.toList_append, hopen, hclose, List.append_assoc, List.cons_append,
      List.nil_append] using hunbroken

theorem isEntry_textShadow (shadow : Shadow) : IsEntry ',' (textShadow shadow) := by
  have hlength : ∀ x, Unbroken ',' (px x).toList := unbroken_px (by decide)
  constructor
  · rw [textShadow]
    simp only [String.toList_append]
    exact ((((((hlength _).append unbroken_blank).append (hlength _)).append unbroken_blank).append
      (hlength _)).append unbroken_blank).append (unbroken_css _)
  · obtain ⟨c, cs, hchars, hfirst⟩ := exists_px_cons shadow.offset.x
    simp [textShadow, hchars, hfirst]

theorem isEntry_boxShadow (inset : Bool) (shadow : Shadow) :
    IsEntry ',' (boxShadow inset shadow) := by
  have hlength : ∀ x, Unbroken ',' (px x).toList := unbroken_px (by decide)
  have hinset : Unbroken ',' (if inset then "inset " else "").toList := by
    cases inset with
    | true => exact unbroken_of_forall (by simp)
    | false => exact unbroken_nil
  constructor
  · rw [boxShadow]
    simp only [String.toList_append]
    exact ((((((((hinset.append (hlength _)).append unbroken_blank).append (hlength _)).append
      unbroken_blank).append (hlength _)).append unbroken_blank).append (hlength _)).append
      unbroken_blank).append (unbroken_css _)
  · obtain ⟨c, cs, hchars, hfirst⟩ := exists_px_cons shadow.offset.x
    cases inset with
    | true => simp [boxShadow]
    | false => simp [boxShadow, hchars, hfirst]

theorem isEntry_blur (radius : Float) : IsEntry ' ' (blur radius) := by
  have hname : Unbroken ' ' "blur".toList := unbroken_of_forall (by simp)
  have hinner : ∀ c ∈ (px radius).toList, c ≠ '(' ∧ c ≠ ')' := fun _ hc =>
    ne_parentheses_of_isNumberChar (isNumberChar_of_mem_px hc)
  constructor
  · have hopen : "blur(".toList = "blur".toList ++ ['('] := rfl
    have hclose : ")".toList = [')'] := rfl
    have hunbroken := hname.append (unbroken_parentheses (by decide) hinner)
    simpa only [blur, String.toList_append, hopen, hclose, List.append_assoc,
      List.cons_append, List.nil_append] using hunbroken
  · simp [blur]

end SceneMarkup.Style
