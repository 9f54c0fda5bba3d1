/-
  SceneMarkup/Proofs/Decimal/Canonical.lean --- one text for each number of hundredths.

  WHAT THIS FILE IS FOR.  A number of a stylesheet is written with two places, and the
  zeros that end them are taken off, with the point if nothing stands behind it.  What is
  left is cut into a sign, the digits of the integer part and a fraction
  (`trimFraction_fixedText`).  A reader of decimals, which knows nothing of the writer,
  finds the number in it again, so that different numbers have different texts.
-/
import Mathlib.Algebra.Field.Rat
import Mathlib.Data.List.DropRight
import Mathlib.Tactic.FieldSimp
import Mathlib.Tactic.Ring
import SceneMarkup.Proofs.Style.Value

set_option autoImplicit false

namespace SceneMarkup.Decimal

open Style (mem_of_mem_dropEndWhile)

/-! ## Decimal texts -/

/-- The value of the digits behind a point. -/
def fractionValue (ds : List Char) : ℚ := Nat.ofDigitChars 10 ds 0 / 10 ^ ds.length

/-- The number that a text without a sign denotes: digits, and digits behind a point if there is
one. -/
def readUnsigned? (cs : List Char) : Option ℚ :=
  let whole := cs.takeWhile Char.isDigit
  match cs.dropWhile Char.isDigit with
  | [] => if whole = [] then none else some (Nat.ofDigitChars 10 whole 0 : ℚ)
  | c :: fraction =>
      if whole ≠ [] ∧ c = '.' ∧ fraction ≠ [] ∧ fraction.all Char.isDigit = true then
        some (Nat.ofDigitChars 10 whole 0 + fractionValue fraction)
      else none

/-- The number that a decimal text denotes. -/
def readDecimal? : List Char → Option ℚ
  | '-' :: cs => (readUnsigned? cs).map fun x => -x
  | cs => readUnsigned? cs

/-- A sign, if the number is negative. -/
def sign (negative : Bool) : List Char := if negative then ['-'] else []

/-- Digits behind a point; there is no point without digits. -/
def pointed (ds : List Char) : List Char := if ds = [] then [] else '.' :: ds

variable {whole ds : List Char}

theorem fractionValue_nil : fractionValue [] = 0 := by
  rw [fractionValue, Nat.ofDigitChars_nil, Nat.cast_zero, zero_div]

theorem readUnsigned?_append_pointed (hwhole : ∀ c ∈ whole, c.isDigit = true) (hne : whole ≠ [])
    (hds : ∀ c ∈ ds, c.isDigit = true) :
    readUnsigned? (whole ++ pointed ds) =
      some (Nat.ofDigitChars 10 whole 0 + fractionValue ds) := by
  rw [pointed]
  split
  · rename_i hnil
    rw [hnil, List.append_nil, readUnsigned?, List.takeWhile_eq_self_iff.2 hwhole,
      List.dropWhile_eq_nil_iff.2 hwhole, fractionValue_nil, add_zero]
    exact if_neg hne
  · rename_i hfraction
    have htake : (whole ++ '.' :: ds).takeWhile Char.isDigit = whole := by
      rw [List.takeWhile_append_of_pos hwhole]
      simp
    have hdrop : (whole ++ '.' :: ds).dropWhile Char.isDigit = '.' :: ds := by
      rw [List.dropWhile_append_of_pos hwhole]
      rfl
    rw [readUnsigned?, htake, hdrop]
    exact if_pos ⟨hne, rfl, hfraction, List.all_eq_true.2 hds⟩

theorem readDecimal?_sign_append (negative : Bool) (hwhole : ∀ c ∈ whole, c.isDigit = true)
    (hne : whole ≠ []) (rest : List Char) :
    readDecimal? (sign negative ++ (whole ++ rest)) =
      (readUnsigned? (whole ++ rest)).map fun x => (if negative then -1 else 1) * x := by
  cases negative with
  | true =>
      simp only [sign, if_true, List.singleton_append, readDecimal?, neg_one_mul]
  | false =>
      obtain ⟨c, others, rfl⟩ := List.exists_cons_of_ne_nil hne
      have hc : c ≠ '-' := by
        rintro rfl
        exact absurd (hwhole '-' List.mem_cons_self) (by decide)
      simp only [sign, Bool.false_eq_true, if_false, List.nil_append, one_mul, Option.map_id']
      rw [List.cons_append, readDecimal?]
      exact fun cs h => hc (List.cons.inj h).1

/-! ## Trimmed texts -/

/-- A character that stays keeps what stands in front of it. -/
theorem dropEndWhile_append_cons {p : Char → Bool} {c : Char} (hc : p c = false)
    (before after : List Char) :
    dropEndWhile p (before ++ c :: after) = before ++ c :: dropEndWhile p after := by
  have hreverse : (before ++ c :: after).reverse = after.reverse ++ c :: before.reverse := by
    simp
  rw [dropEndWhile, dropEndWhile, hreverse, List.dropWhile_append]
  split
  · rename_i hnil
    rw [List.isEmpty_iff.1 hnil, List.dropWhile_cons_of_neg (by simp [hc])]
    simp
  · simp

theorem dropEndWhile_concat_pos {p : Char → Bool} {c : Char} (hc : p c = true)
    (before : List Char) : dropEndWhile p (before ++ [c]) = dropEndWhile p before :=
  List.rdropWhile_concat_pos p before c hc

/-- Nothing is dropped if the last of the characters stays. -/
theorem dropEndWhile_append {p : Char → Bool} {cs : List Char} (hne : cs ≠ [])
    (h : ∀ c ∈ cs, p c = false) (before : List Char) :
    dropEndWhile p (before ++ cs) = before ++ cs := by
  have hlast := h _ (List.getLast_mem hne)
  have hcs : before ++ cs = before ++ cs.dropLast ++ [cs.getLast hne] := by
    rw [List.append_assoc, List.dropLast_concat_getLast hne]
  rw [hcs]
  exact dropEndWhile_append_cons hlast _ []

/-- A digit is not the point. -/
theorem ne_point_of_isDigit {c : Char} (h : c.isDigit = true) : (c == '.') = false := by
  refine beq_false_of_ne ?_
  rintro rfl
  exact absurd h (by decide)

/-- A trimmed text has a fraction without zeros at its end, or none. -/
theorem trimFraction_append (hwhole : ∀ c ∈ whole, c.isDigit = true) (hne : whole ≠ [])
    (before : List Char) (hds : ∀ c ∈ ds, c.isDigit = true) :
    trimFraction (before ++ (whole ++ '.' :: ds)) =
      before ++ (whole ++ pointed (dropEndWhile (· == '0') ds)) := by
  -- the point is there at any rate and keeps the zeros in front of it
  rw [trimFraction, ← List.append_assoc, ← List.append_assoc, dropEndWhile_append_cons (by decide),
    pointed]
  split
  · rename_i hnone
    rw [hnone, List.append_nil, dropEndWhile_concat_pos (by decide)]
    exact dropEndWhile_append hne (fun c hc => ne_point_of_isDigit (hwhole c hc)) before
  · rename_i hfraction
    have hkept : ∀ c ∈ dropEndWhile (· == '0') ds, (c == '.') = false :=
      fun c hc => ne_point_of_isDigit (hds c (mem_of_mem_dropEndWhile hc))
    rw [List.append_cons, dropEndWhile_append hfraction hkept]

/-- Zeros that end a fraction do not count. -/
theorem fractionValue_dropEndWhile (ds : List Char) :
    fractionValue (dropEndWhile (· == '0') ds) = fractionValue ds := by
  induction ds using List.reverseRecOn with
  | nil => rfl
  | append_singleton ds c ih =>
      by_cases hc : c = '0'
      · have hvalue : Nat.ofDigitChars 10 (ds ++ ['0']) 0 = 10 * Nat.ofDigitChars 10 ds 0 := by
          rw [Nat.ofDigitChars_append]
          rfl
        rw [hc, dropEndWhile_concat_pos (by decide), ih, fractionValue, fractionValue, hvalue,
          List.length_append, List.length_singleton, pow_succ]
        push_cast
        field_simp
      · rw [dropEndWhile_append_cons (by simpa using hc) ds []]
        rfl

/-! ## Fixed places -/

theorem length_padded {width n : Nat} (hwidth : 0 < width) (hn : n < 10 ^ width) :
    (padded width n).length = width := by
  have hlength : (Nat.toDigits 10 n).length ≤ width :=
    (Nat.length_toDigits_le_iff (by decide) hwidth).2 hn
  rw [padded, List.length_append, List.length_replicate]
  omega

theorem ofDigitChars_padded (width n : Nat) : Nat.ofDigitChars 10 (padded width n) 0 = n := by
  rw [padded, Nat.ofDigitChars_append, Nat.ofDigitChars_replicate_zero, Nat.mul_zero,
    Nat.ofDigitChars_ten_toDigits]

theorem isDigit_of_mem_toDigits {n : Nat} {c : Char} (h : c ∈ Nat.toDigits 10 n) :
    c.isDigit = true :=
  Nat.isDigit_of_mem_toDigits (by decide) (by decide) h

theorem isDigit_of_mem_padded {width n : Nat} {c : Char} (h : c ∈ padded width n) :
    c.isDigit = true := by
  rw [padded, List.mem_append] at h
  rcases h with h | h
  · rw [(List.mem_replicate.1 h).2]
    rfl
  · exact isDigit_of_mem_toDigits h

/-- The digits behind the point of `n / 10 ^ places`, without the zeros that end them. -/
def fractionDigits (places n : Nat) : List Char :=
  dropEndWhile (· == '0') (padded places (n % 10 ^ places))

theorem isDigit_of_mem_fractionDigits {places n : Nat} {c : Char}
    (h : c ∈ fractionDigits places n) : c.isDigit = true :=
  isDigit_of_mem_padded (mem_of_mem_dropEndWhile h)

theorem trimFraction_fixedText (negative : Bool) (places n : Nat) :
    trimFraction (fixedText negative places n) =
      sign negative ++
        (Nat.toDigits 10 (n / 10 ^ places) ++ pointed (fractionDigits places n)) :=
  trimFraction_append (fun _ => isDigit_of_mem_toDigits) Nat.toDigits_ne_nil (sign negative)
    fun _ => isDigit_of_mem_padded

/-- A trimmed text denotes the number it was made from. -/
theorem readDecimal?_trimFraction_fixedText (negative : Bool) {places : Nat} (hplaces : 0 < places)
    (n : Nat) :
    readDecimal? (trimFraction (fixedText negative places n)) =
      some ((if negative then -1 else 1) * (n / 10 ^ places) : ℚ) := by
  have hmod : n % 10 ^ places < 10 ^ places := Nat.mod_lt _ (Nat.pow_pos (by decide))
  have hfraction : fractionValue (fractionDigits places n) =
      ((n % 10 ^ places : ℕ) : ℚ) / 10 ^ places := by
    rw [fractionDigits, fractionValue_dropEndWhile, fractionValue, ofDigitChars_padded,
      length_padded hplaces hmod]
  have hsplit : (n : ℚ) = 10 ^ places * (n / 10 ^ places : ℕ) + (n % 10 ^ places : ℕ) := by
    exact_mod_cast (Nat.div_add_mod n (10 ^ places)).symm
  rw [trimFraction_fixedText,
    readDecimal?_sign_append negative (fun _ => isDigit_of_mem_toDigits) Nat.toDigits_ne_nil,
    readUnsigned?_append_pointed (fun _ => isDigit_of_mem_toDigits) Nat.toDigits_ne_nil
      (fun _ => isDigit_of_mem_fractionDigits),
    Option.map_some, hfraction, Nat.ofDigitChars_ten_toDigits, hsplit]
  congr 2
  field_simp

/-! ## Canonical texts -/

/-- A decimal text without a point or a zero that could be left out at its end, and without the sign
that a zero does not have. -/
structure Canonical (cs : List Char) : Prop where
  ne_nil : cs ≠ []
  ne_negative_zero : cs ≠ "-0".toList
  last_ne_point : cs.getLast? ≠ some '.'
  last_ne_zero : '.' ∈ cs → cs.getLast? ≠ some '0'

theorem hundredthsText_eq (h : Int) :
    hundredthsText h = sign (decide (h < 0)) ++
      (Nat.toDigits 10 (h.natAbs / 100) ++ pointed (fractionDigits 2 h.natAbs)) :=
  trimFraction_fixedText (decide (h < 0)) 2 h.natAbs

/-- The text of a number of hundredths denotes it. -/
theorem readDecimal?_hundredthsText (h : Int) :
    readDecimal? (hundredthsText h) = some ((h : ℚ) / 100) := by
  have hread := readDecimal?_trimFraction_fixedText (decide (h < 0)) (by decide : 0 < 2) h.natAbs
  have hvalue : (h : ℚ) = (if decide (h < 0) = true then -1 else 1) * (h.natAbs : ℚ) := by
    obtain hneg | hpos := lt_or_ge h 0
    · have habs : h = -(h.natAbs : ℤ) := by omega
      rw [if_pos (decide_eq_true hneg), neg_one_mul]
      exact (congrArg Int.cast habs).trans (by rw [Int.cast_neg, Int.cast_natCast])
    · have habs : h = (h.natAbs : ℤ) := by omega
      rw [if_neg (by simpa using hpos), one_mul]
      exact (congrArg Int.cast habs).trans (Int.cast_natCast _)
  rw [hundredthsText, hread, hvalue, mul_div_assoc]
  norm_num

theorem eq_of_div_hundred_eq {h k : Int} (hvalue : (h : ℚ) / 100 = (k : ℚ) / 100) : h = k := by
  rw [div_left_inj' (by norm_num)] at hvalue
  exact_mod_cast hvalue

/-- Different numbers of hundredths have different texts. -/
theorem hundredthsText_eq_iff {h k : Int} : hundredthsText h = hundredthsText k ↔ h = k := by
  refine ⟨fun htext => ?_, fun heq => by rw [heq]⟩
  have hread := congrArg readDecimal? htext
  rw [readDecimal?_hundredthsText, readDecimal?_hundredthsText, Option.some.injEq] at hread
  exact eq_of_div_hundred_eq hread

/-- What stands in front of the point has none. -/
theorem not_mem_sign_toDigits (negative : Bool) (n : Nat) :
    '.' ∉ sign negative ++ Nat.toDigits 10 n := by
  have hsign : '.' ∉ sign negative := by cases negative <;> decide
  rw [List.mem_append, not_or]
  exact ⟨hsign, fun h => absurd (isDigit_of_mem_toDigits h) (by decide)⟩

theorem getLast?_fractionDigits_ne (places n : Nat) :
    (fractionDigits places n).getLast? ≠ some '0' := by
  intro hlast
  obtain ⟨before, hbefore⟩ := List.getLast?_eq_some_iff.1 hlast
  have hne : fractionDigits places n ≠ [] := by simp [hbefore]
  have hstays : ¬ ((fractionDigits places n).getLast hne == '0') = true :=
    List.rdropWhile_last_not (· == '0') _ hne
  rw [List.getLast?_eq_some_getLast hne, Option.some.injEq] at hlast
  rw [hlast] at hstays
  exact hstays rfl

/-- A text ends like its fraction, or like its integer part if it has no fraction. -/
theorem getLast?_hundredthsText (h : Int) :
    (hundredthsText h).getLast? =
      if fractionDigits 2 h.natAbs = [] then (Nat.toDigits 10 (h.natAbs / 100)).getLast?
      else (fractionDigits 2 h.natAbs).getLast? := by
  rw [hundredthsText_eq, pointed]
  split
  · rw [List.append_nil, List.getLast?_append_of_ne_nil _ Nat.toDigits_ne_nil]
  · rename_i hfraction
    rw [List.append_cons, ← List.append_assoc, List.getLast?_append_of_ne_nil _ hfraction]

theorem canonical_hundredthsText (h : Int) : Canonical (hundredthsText h) := by
  have hread := readDecimal?_hundredthsText h
  refine ⟨fun hnil => ?_, fun hzero => ?_, fun hpoint => ?_, fun hmem hzero => ?_⟩
  · rw [hnil] at hread
    cases hread
  · have hvalue : readDecimal? "-0".toList = some (((0 : ℤ) : ℚ) / 100) := by decide +kernel
    rw [hzero, hvalue, Option.some.injEq] at hread
    rw [← eq_of_div_hundred_eq hread] at hzero
    exact absurd hzero (by decide)
  · rw [getLast?_hundredthsText] at hpoint
    split at hpoint
    · exact absurd (isDigit_of_mem_toDigits (List.mem_of_getLast? hpoint)) (by decide)
    · exact absurd (isDigit_of_mem_fractionDigits (List.mem_of_getLast? hpoint)) (by decide)
  · rw [getLast?_hundredthsText] at hzero
    split at hzero
    · rename_i hnone
      rw [hundredthsText_eq, hnone, pointed, if_pos rfl, List.append_nil] at hmem
      exact not_mem_sign_toDigits _ _ hmem
    · exact getLast?_fractionDigits_ne 2 h.natAbs hzero

theorem takeWhile_hundredthsText (h : Int) :
    (hundredthsText h).takeWhile (· ≠ '.') =
      sign (decide (h < 0)) ++ Nat.toDigits 10 (h.natAbs / 100) := by
  have hfront : ∀ c ∈ sign (decide (h < 0)) ++ Nat.toDigits 10 (h.natAbs / 100),
      decide (c ≠ '.') = true := by
    intro c hc
    refine decide_eq_true ?_
    rintro rfl
    exact not_mem_sign_toDigits _ _ hc
  rw [hundredthsText_eq, ← List.append_assoc, List.takeWhile_append_of_pos hfront, pointed]
  split
  · simp
  · simp

/-- Of a whole number all zeros are written. -/
theorem hundredthsText_whole (n : Nat) : hundredthsText (100 * n) = Nat.toDigits 10 n := by
  have habs : (100 * (n : ℤ)).natAbs = 100 * n := by omega
  have hsign : sign (decide (100 * (n : ℤ) < 0)) = [] := if_neg (by simp)
  have hfraction : fractionDigits 2 (100 * n) = [] := by
    have hmod : 100 * n % 10 ^ 2 = 0 := Nat.mul_mod_right 100 n
    rw [fractionDigits, hmod]
    rfl
  rw [hundredthsText_eq, hsign, habs, hfraction, Nat.mul_div_cancel_left n (by decide)]
  exact List.append_nil _

/-! ## Numbers of a stylesheet -/

/-- What a stylesheet shows of a number: hundredths, unless the number is not finite. -/
inductive Shown where
  | hundredths (h : Int)
  | infinite (negative : Bool)
  | nan
  deriving DecidableEq, Repr

/-- What is shown of a number once it is rounded. -/
def Shown.ofFloat (x : Float) : Shown :=
  match Exact.ofFloat (roundHundredth x) with
  | .finite negative m e => .hundredths (signedHundredths negative (scaled .even 2 m e))
  | .infinite negative => .infinite negative
  | .nan => .nan

/-- The text of what is shown. -/
def Shown.text : Shown → List Char
  | .hundredths h => hundredthsText h
  | .infinite true => "-inf".toList
  | .infinite false => "inf".toList
  | .nan => "NaN".toList

theorem toList_numberText (x : Float) : (numberText x).toList = (Shown.ofFloat x).text := by
  rw [numberText, Shown.ofFloat]
  cases Exact.ofFloat (roundHundredth x) with
  | nan => rfl
  | infinite negative => cases negative <;> rfl
  | finite negative m e => exact String.toList_ofList

/-- The number that is shown, if it is finite. -/
def Shown.value? : Shown → Option ℚ
  | .hundredths h => some ((h : ℚ) / 100)
  | .infinite _ => none
  | .nan => none

theorem Shown.readDecimal?_text (s : Shown) : readDecimal? s.text = s.value? := by
  cases s with
  | hundredths h => exact readDecimal?_hundredthsText h
  | infinite negative => cases negative <;> rfl
  | nan => rfl

/-- What is shown differently is written differently. -/
theorem Shown.text_injective : Function.Injective Shown.text := by
  intro s t htext
  have hread := congrArg readDecimal? htext
  rw [readDecimal?_text, readDecimal?_text] at hread
  have hinfinite : ∀ a b, (Shown.infinite a).text = (Shown.infinite b).text → a = b := by decide
  have hnan : ∀ a, (Shown.infinite a).text ≠ Shown.nan.text := by decide
  cases s with
  | hundredths h =>
      cases t with
      | hundredths k => rw [eq_of_div_hundred_eq (Option.some.inj hread)]
      | infinite negative => cases hread
      | nan => cases hread
  | infinite negative =>
      cases t with
      | hundredths k => cases hread
      | infinite other => rw [hinfinite negative other htext]
      | nan => exact absurd htext (hnan negative)
  | nan =>
      cases t with
      | hundredths k => cases hread
      | infinite negative => exact absurd htext.symm (hnan negative)
      | nan => rfl

theorem numberText_eq_iff {x y : Float} :
    numberText x = numberText y ↔ Shown.ofFloat x = Shown.ofFloat y := by
  rw [← String.toList_inj, toList_numberText, toList_numberText, Shown.text_injective.eq_iff]

theorem numberText_append_eq_iff {x y : Float} (measure : String) :
    numberText x ++ measure = numberText y ++ measure ↔ Shown.ofFloat x = Shown.ofFloat y := by
  rw [← String.toList_inj, String.toList_append, String.toList_append, List.append_left_inj,
    String.toList_inj, numberText_eq_iff]

/-- Numbers have one text each. The text of any number of hundredths denotes it and has nothing to
leave out; its integer part is written with all its zeros. So two numbers of one unit have the same
text in a stylesheet exactly if they are the same once they are rounded. -/
theorem numbers_canonical :
    (∀ h : Int,
      readDecimal? (hundredthsText h) = some ((h : ℚ) / 100) ∧
      Canonical (hundredthsText h) ∧
      (hundredthsText h).takeWhile (· ≠ '.') =
        sign (decide (h < 0)) ++ Nat.toDigits 10 (h.natAbs / 100)) ∧
    (∀ n : Nat, hundredthsText (100 * n) = Nat.toDigits 10 n) ∧
    (∀ h k : Int, hundredthsText h = hundredthsText k ↔ h = k) ∧
    ∀ x y : Float,
      (numberText x = numberText y ↔ Shown.ofFloat x = Shown.ofFloat y) ∧
      (Style.px x = Style.px y ↔ Shown.ofFloat x = Shown.ofFloat y) ∧
      (Style.deg x = Style.deg y ↔ Shown.ofFloat x = Shown.ofFloat y) ∧
      (Style.percent x = Style.percent y ↔ Shown.ofFloat (x * 100) = Shown.ofFloat (y * 100)) := by
  refine ⟨fun h => ⟨readDecimal?_hundredthsText h, canonical_hundredthsText h,
    takeWhile_hundredthsText h⟩, hundredthsText_whole, fun h k => hundredthsText_eq_iff,
    fun x y => ⟨numberText_eq_iff, ?_, ?_, ?_⟩⟩
  · exact numberText_append_eq_iff "px"
  · exact numberText_append_eq_iff "deg"
  · exact numberText_append_eq_iff "%"

/-- A negative number, and numbers on both sides of zero and of half a hundredth. -/
theorem numbers_canonical_near_zero :
    hundredthsText (-1250) = "-12.5".toList ∧
    ('.' ∈ hundredthsText (-1250) ∧ (hundredthsText (-1250)).getLast? ≠ some '0') ∧
    readDecimal? "-12.5".toList = some (-25 / 2) ∧
    (Shown.ofFloat (-0.004) = .hundredths 0 ∧ Style.px (-0.004) = Style.px 0.004) ∧
    (Shown.ofFloat 0.005 = .hundredths 1 ∧ Style.px 0.005 ≠ Style.px 0.004) := by
  obtain ⟨htexts, -, -, hshown⟩ := numbers_canonical
  obtain ⟨hread, hcanonical, -⟩ := htexts (-1250)
  have htext : hundredthsText (-1250) = "-12.5".toList := by decide
  have hmem : '.' ∈ hundredthsText (-1250) := by decide
  have hnegative : Shown.ofFloat (-0.004) = .hundredths 0 := by decide +kernel
  have hbelow : Shown.ofFloat 0.004 = .hundredths 0 := by decide +kernel
  have hhalf : Shown.ofFloat 0.005 = .hundredths 1 := by decide +kernel
  obtain ⟨-, hsame, -⟩ := hshown (-0.004) 0.004
  obtain ⟨-, hdifferent, -⟩ := hshown 0.005 0.004
  refine ⟨htext, ⟨hmem, hcanonical.last_ne_zero hmem⟩, ?_, ⟨hnegative, ?_⟩, hhalf, ?_⟩
  · rw [← htext, hread]
    norm_num
  · rw [hsame, hnegative, hbelow]
  · rw [Ne, hdifferent, hhalf, hbelow]
    decide

end SceneMarkup.Decimal
