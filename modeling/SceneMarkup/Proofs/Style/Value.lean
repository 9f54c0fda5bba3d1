/-
  SceneMarkup/Proofs/Style/Value.lean --- what style values are made of.

  WHAT THIS FILE IS FOR.  Numbers, colors and keywords are plain text.  The two values
  that hold text of a document are the quoted name of a font and the quoted address of an
  image, and each is closed for a reader that knows how it was quoted.
-/
import SceneMarkup.Proofs.Style.Lexis
import SceneMarkup.Style.Effect
import SceneMarkup.Style.Font

set_option autoImplicit false

namespace SceneMarkup.Style

/-! ## Numbers -/

/-- Whether a character may stand in the text of a number, finite or not. -/
def isNumberChar (c : Char) : Bool := c.isAlphanum || c == '-' || c == '.'

theorem ne_of_isNumberChar {c d : Char} (hc : isNumberChar c = true)
    (hd : isNumberChar d = false) : c ≠ d := by
  rintro rfl
  rw [hd] at hc
  cases hc

theorem isPlain_of_isNumberChar {c : Char} (h : isNumberChar c = true) : isPlain c = true := by
  have hne : ∀ d : Char, isNumberChar d = false → c ≠ d := fun d => ne_of_isNumberChar h
  simp [isPlain, isDelimiter, isLineBreak, hne, isNumberChar]

theorem isNumberChar_of_isDigit {c : Char} (h : c.isDigit = true) : isNumberChar c = true := by
  simp [isNumberChar, Char.isAlphanum, h]

theorem isNumberChar_of_mem_toDigits {n : Nat} {c : Char} (h : c ∈ Nat.toDigits 10 n) :
    isNumberChar c = true :=
  isNumberChar_of_isDigit (Nat.isDigit_of_mem_toDigits (by decide) (by decide) h)

theorem mem_of_mem_dropEndWhile {p : Char → Bool} {c : Char} {cs : List Char}
    (h : c ∈ Decimal.dropEndWhile p cs) : c ∈ cs := by
  rw [Decimal.dropEndWhile, List.mem_reverse] at h
  exact List.mem_reverse.1 ((List.dropWhile_sublist p).mem h)

theorem isNumberChar_of_mem_fixedText {negative : Bool} {places n : Nat} {c : Char}
    (h : c ∈ Decimal.fixedText negative places n) : isNumberChar c = true := by
  rw [Decimal.fixedText, List.mem_append, List.mem_append, List.mem_cons, Decimal.padded,
    List.mem_append] at h
  rcases h with h | h | rfl | h | h
  · cases negative with
    | true => rw [if_pos rfl, List.mem_singleton] at h; rw [h]; decide
    | false => simp at h
  · exact isNumberChar_of_mem_toDigits h
  · decide
  · rw [(List.mem_replicate.1 h).2]; decide
  · exact isNumberChar_of_mem_toDigits h

theorem isNumberChar_of_mem_numberText {x : Float} {c : Char}
    (h : c ∈ (Decimal.numberText x).toList) : isNumberChar c = true := by
  unfold Decimal.numberText at h
  cases hx : Decimal.Exact.ofFloat (Decimal.roundHundredth x) with
  | nan =>
      rw [hx] at h
      exact List.all_eq_true.1 (by decide : "NaN".toList.all isNumberChar = true) c h
  | infinite negative =>
      rw [hx] at h
      cases negative with
      | true => exact List.all_eq_true.1 (by decide : "-inf".toList.all isNumberChar = true) c h
      | false => exact List.all_eq_true.1 (by decide : "inf".toList.all isNumberChar = true) c h
  | finite negative m e =>
      rw [hx, String.toList_ofList] at h
      exact isNumberChar_of_mem_fixedText (mem_of_mem_dropEndWhile (mem_of_mem_dropEndWhile h))

theorem isNumberChar_of_mem_toString_nat {n : Nat} {c : Char} (h : c ∈ (toString n).toList) :
    isNumberChar c = true := by
  rw [Nat.toString_eq_ofList_toDigits, String.toList_ofList] at h
  exact isNumberChar_of_mem_toDigits h

/-- The text of a number is plain, also of one that is not finite. -/
theorem plain_numberText (x : Float) : Plain (Decimal.numberText x) :=
  fun _ hc => isPlain_of_isNumberChar (isNumberChar_of_mem_numberText hc)

theorem plain_toString_nat (n : Nat) : Plain (toString n) :=
  fun _ hc => isPlain_of_isNumberChar (isNumberChar_of_mem_toString_nat hc)

/-- A length is a number and its unit, with nothing between them. -/
theorem isNumberChar_of_mem_px {x : Float} {c : Char} (h : c ∈ (px x).toList) :
    isNumberChar c = true := by
  rw [px, String.toList_append, List.mem_append] at h
  rcases h with h | h
  · exact isNumberChar_of_mem_numberText h
  · exact List.all_eq_true.1 (by decide : "px".toList.all isNumberChar = true) c h

theorem plain_px (x : Float) : Plain (px x) := (plain_numberText x).append (by decide)

theorem plain_percent (x : Float) : Plain (percent x) := (plain_numberText _).append (by decide)

theorem plain_fourPx (a b c d : Float) : Plain (fourPx a b c d) :=
  ((((((plain_px a).append (by decide)).append (plain_px b)).append (by decide)).append
    (plain_px c)).append (by decide)).append (plain_px d)

theorem plain_padding (p : Padding) : Plain (padding p) := by
  unfold padding
  split
  · exact plain_px _
  · exact plain_fourPx _ _ _ _

theorem plain_radius (corners : CornerRadius) : Plain (radius corners) := by
  cases corners with
  | uniform r => exact plain_px r
  | perCorner a b c d => exact plain_fourPx a b c d

/-! ## Colors and gradients -/

theorem isNumberChar_hexDigit {n : Nat} (h : n < 16) : isNumberChar (Rgba.hexDigit n) = true := by
  have hall : ∀ k : Fin 16, isNumberChar (Rgba.hexDigit k) = true := by decide
  exact hall ⟨n, h⟩

theorem isNumberChar_of_mem_hexByte {channel : Float} {c : Char}
    (h : c ∈ Rgba.hexByte (Rgba.byteOf channel)) : isNumberChar c = true := by
  have hbyte : Rgba.byteOf channel ≤ 255 := Nat.min_le_left _ _
  rw [Rgba.hexByte, List.mem_cons, List.mem_singleton] at h
  rcases h with rfl | rfl
  · exact isNumberChar_hexDigit (by omega)
  · exact isNumberChar_hexDigit (by omega)

theorem mem_hex {color : Color} {c : Char} (h : c ∈ (Rgba.hex color).toList) :
    c = '#' ∨ isNumberChar c = true := by
  rw [Rgba.hex, String.toList_ofList, List.mem_cons, List.mem_append, List.mem_append] at h
  rcases h with h | (h | h) | h
  · exact Or.inl h
  · exact Or.inr (isNumberChar_of_mem_hexByte h)
  · exact Or.inr (isNumberChar_of_mem_hexByte h)
  · exact Or.inr (isNumberChar_of_mem_hexByte h)

theorem plain_hex (c : Color) : Plain (Rgba.hex c) := by
  intro d hd
  rcases mem_hex hd with rfl | hd
  · decide
  · exact isPlain_of_isNumberChar hd

theorem plain_css (c : Color) : Plain c.css := by
  rw [Rgba.css]
  split
  · exact plain_hex c
  · have hstart : Plain "rgba(" := by decide
    have hcomma : Plain ", " := by decide
    have hend : Plain ")" := by decide
    exact ((((((((hstart.append (plain_toString_nat _)).append hcomma).append
      (plain_toString_nat _)).append hcomma).append (plain_toString_nat _)).append hcomma).append
      (plain_numberText _)).append hend)

theorem plain_gradientStop (opacity : Float) (stop : GradientStop) :
    Plain (gradientStop opacity stop) :=
  ((plain_css _).append (by decide)).append (plain_percent _)

theorem plain_gradientValue {g : Gradient} {opacity : Float} {value : String}
    (h : gradientValue g opacity = .ok value) : Plain value := by
  unfold gradientValue at h
  split at h
  · simp at h
  · split at h
    · simp at h
    · have hcomma : Plain ", " := by decide
      have hend : Plain ")" := by decide
      have hstops : Plain (String.intercalate ", " (g.stops.map (gradientStop opacity))) := by
        refine plain_intercalate hcomma fun text htext => ?_
        obtain ⟨stop, _, rfl⟩ := List.mem_map.1 htext
        exact plain_gradientStop opacity stop
      obtain rfl := Except.ok.inj h
      cases g.kind with
      | linear =>
          have hstart : Plain "linear-gradient(" := by decide
          have hangle : Plain (deg (linearAngle g.handles)) :=
            (plain_numberText _).append (by decide)
          exact (((hstart.append hangle).append hcomma).append hstops).append hend
      | radial =>
          have hstart : Plain "radial-gradient(circle, " := by decide
          exact (hstart.append hstops).append hend
      | diamond =>
          have hstart : Plain "radial-gradient(circle, " := by decide
          exact (hstart.append hstops).append hend
      | angular =>
          have hstart : Plain "conic-gradient(" := by decide
          exact (hstart.append hstops).append hend

/-! ## Shadows and blurs -/

theorem plain_textShadow (shadow : Shadow) : Plain (textShadow shadow) :=
  ((((((plain_px _).append (by decide)).append (plain_px _)).append (by decide)).append
    (plain_px _)).append (by decide)).append (plain_css _)

theorem plain_boxShadow (inset : Bool) (shadow : Shadow) : Plain (boxShadow inset shadow) := by
  have hstart : Plain (if inset then "inset " else "") := by cases inset <;> decide
  have hblank : Plain " " := by decide
  exact (((((((((hstart.append (plain_px _)).append hblank).append (plain_px _)).append
    hblank).append (plain_px _)).append hblank).append (plain_px _)).append hblank).append
    (plain_css _))

theorem plain_blur (radius : Float) : Plain (blur radius) := by
  have hstart : Plain "blur(" := by decide
  exact (hstart.append (plain_px radius)).append (by decide)

/-! ## Quoted text -/

namespace Lexis

/-- The content of a quoted name goes on between quotes, unless it breaks a line where that is
not allowed. -/
theorem read_flatMap_quotedChar {lexis : Lexis} (hescapes : lexis.escapes = true)
    (name : List Char) :
    lexis.read .inside (name.flatMap quotedChar) =
      if lexis.breaks || name.all (!isLineBreak ·) then some .inside else none := by
  induction name with
  | nil => rw [List.flatMap_nil, read_nil, List.all_nil, Bool.or_true, if_pos rfl]
  | cons c rest ih =>
      have hstep : lexis.read .inside (quotedChar c) =
          if lexis.breaks || !isLineBreak c then some .inside else none := by
        by_cases hbackslash : c = '\\'
        · subst hbackslash
          simp [quotedChar, read_cons, read_nil, step, hescapes, isLineBreak]
        · by_cases hquote : c = '"'
          · subst hquote
            simp [quotedChar, read_cons, read_nil, step, hescapes, isLineBreak]
          · cases hbreaks : lexis.breaks <;> cases hbreak : isLineBreak c <;>
              simp [quotedChar, read_cons, read_nil, step, hbackslash, hquote, hbreaks, hbreak]
      rw [List.flatMap_cons, read_append, hstep, List.all_cons]
      cases hbreaks : lexis.breaks <;> cases hbreak : isLineBreak c <;>
        simp [ih, hbreaks]

theorem toList_quoted (name : String) :
    (quoted name).toList = '"' :: (name.toList.flatMap quotedChar ++ ['"']) :=
  String.toList_ofList

theorem step_outside_quote (lexis : Lexis) : lexis.step .outside '"' = some .inside := rfl

theorem step_inside_quote (lexis : Lexis) : lexis.step .inside '"' = some .outside := rfl

/-- A quoted name is closed for a reader of escapes, unless it breaks a line where that is not
allowed. -/
theorem closed_quoted_iff {lexis : Lexis} (hescapes : lexis.escapes = true) (name : String) :
    lexis.Closed (quoted name) ↔
      (lexis.breaks || name.toList.all (!isLineBreak ·)) = true := by
  rw [Closed, toList_quoted, read_cons, step_outside_quote, Option.bind_some, read_append,
    read_flatMap_quotedChar hescapes]
  split
  · rename_i h
    simp [h, read_cons, read_nil, step_inside_quote]
  · rename_i h
    simp [h]

/-! ## Addresses of images -/

/-- What stands behind the address of an image. -/
def imageEnding : ScaleMode → String
  | .fill => ") center / cover no-repeat"
  | .crop => ") center / cover no-repeat"
  | .fit => ") center / contain no-repeat"
  | .tile => ") center / auto repeat"

theorem plain_imageEnding (mode : ScaleMode) : Plain (imageEnding mode) := by
  cases mode <;> decide

/-- An image is its address in quotes among plain text. -/
theorem toList_imageValue (reference : String) (mode : ScaleMode) :
    (imageValue reference mode).toList =
      "url(".toList ++
        '"' :: (reference.toList.flatMap addressChar ++ '"' :: (imageEnding mode).toList) := by
  have hurl : (url reference).toList =
      "url(".toList ++ '"' :: (reference.toList.flatMap addressChar ++ ['"', ')']) :=
    String.toList_ofList
  cases mode with
  | fill => rw [imageValue, String.toList_append, hurl]; simp [imageEnding]
  | crop => rw [imageValue, String.toList_append, hurl]; simp [imageEnding]
  | fit => rw [imageValue, String.toList_append, hurl]; simp [imageEnding]
  | tile => rw [imageValue, String.toList_append, hurl]; simp [imageEnding]

theorem read_quote_plain (lexis : Lexis) (place : Place) {ending : List Char}
    (h : ∀ c ∈ ending, isPlain c = true) :
    lexis.read place ('"' :: ending) = lexis.step place '"' := by
  rw [read_cons]
  cases place with
  | outside => exact read_plain (by decide) h
  | inside => exact read_plain (by decide) h
  | escaped => exact read_plain (by decide) h

/-- Where a reader is after an image depends on where the address between the quotes leads it. -/
theorem read_outside_imageValue (lexis : Lexis) (reference : String) (mode : ScaleMode) :
    lexis.read .outside (imageValue reference mode).toList =
      (lexis.read .inside (reference.toList.flatMap addressChar)).bind (lexis.step · '"') := by
  have hstart : Plain "url(" := by decide
  rw [toList_imageValue, read_append, read_plain (by decide) hstart, Option.bind_some, read_cons,
    step_outside_quote, Option.bind_some, read_append]
  simp only [read_quote_plain lexis _ (plain_imageEnding mode)]

theorem read_inside_imageValue (lexis : Lexis) (reference : String) (mode : ScaleMode) :
    lexis.read .inside (imageValue reference mode).toList =
      (lexis.read .outside (reference.toList.flatMap addressChar)).bind (lexis.step · '"') := by
  have hstart : Plain "url(" := by decide
  rw [toList_imageValue, read_append, read_plain (by decide) hstart, Option.bind_some, read_cons,
    step_inside_quote, Option.bind_some, read_append]
  simp only [read_quote_plain lexis _ (plain_imageEnding mode)]

theorem ne_quote_of_mem_flatMap_addressChar {reference : List Char} {c : Char}
    (h : c ∈ reference.flatMap addressChar) : c ≠ '"' := by
  obtain ⟨d, _, hc⟩ := List.mem_flatMap.1 h
  unfold addressChar at hc
  split at hc
  · simp only [List.mem_cons, List.not_mem_nil, or_false] at hc
    rcases hc with rfl | rfl | rfl <;> decide
  · rename_i hd
    rw [List.mem_singleton.1 hc]
    exact hd

/-- An address is closed for a reader to whom neither backslashes nor line breaks matter. -/
theorem closed_imageValue {lexis : Lexis} (hescapes : lexis.escapes = false)
    (hbreaks : lexis.breaks = true) (reference : String) (mode : ScaleMode) :
    lexis.Closed (imageValue reference mode) := by
  have hread : ∀ cs : List Char, (∀ c ∈ cs, c ≠ '"') →
      lexis.read .inside cs = some .inside := by
    intro cs h
    induction cs with
    | nil => rfl
    | cons c cs ih =>
        rw [List.forall_mem_cons] at h
        have hstep : lexis.step .inside c = some .inside := by
          simp [step, h.1, hescapes, hbreaks]
        rw [read_cons, hstep]
        exact ih h.2
  rw [Closed, read_outside_imageValue, hread _ fun _ => ne_quote_of_mem_flatMap_addressChar]
  rfl

end Lexis

end SceneMarkup.Style
