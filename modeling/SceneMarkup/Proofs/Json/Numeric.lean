/-
  SceneMarkup/Proofs/Json/Numeric.lean --- the numbers of a text that is read are numbers.

  WHAT THIS FILE IS FOR.  A value may hold any float, also the one that is no number.
  None that is read from a text does (`numeric_of_read`): a float is read as a significand
  that is multiplied or divided by powers of ten, and every reader of a larger value only
  puts together what smaller ones have read (`Returns`).
-/
import SceneMarkup.Json.Decode
import SceneMarkup.Json.Reader
import SceneMarkup.Proofs.Float.Arithmetic

set_option autoImplicit false

namespace SceneMarkup.Json

/-- A number of a document is one as a float, too. -/
def Number.Numeric (n : Number) : Prop := IsNumber n.toFloat

/-- All numbers in a value are numbers as floats. -/
inductive Value.Numeric : Value → Prop
  | null : Numeric .null
  | bool (b : Bool) : Numeric (.bool b)
  | number (n : Number) : n.Numeric → Numeric (.number n)
  | string (s : String) : Numeric (.string s)
  | array (items : List Value) : (∀ v ∈ items, Numeric v) → Numeric (.array items)
  | object (fields : Fields) : (∀ field ∈ fields, Numeric field.2) → Numeric (.object fields)

theorem numeric_string (s : String) : (Value.string s).Numeric := .string s

theorem numeric_ofInt (n : ℤ) : (Value.ofInt n).Numeric := .number _ (isNumber_ofInt n)

theorem numeric_array_iff {items : List Value} :
    (Value.array items).Numeric ↔ ∀ v ∈ items, v.Numeric :=
  ⟨fun h => by cases h; assumption, .array items⟩

theorem numeric_object_iff {fields : Fields} :
    (Value.object fields).Numeric ↔ ∀ field ∈ fields, field.2.Numeric :=
  ⟨fun h => by cases h; assumption, .object fields⟩

/-! ## Steps -/

section Steps

variable {α β : Type} {P : α → Prop}

/-- What a step hands on, if it does, has a property. -/
def Returns (P : α → Prop) (result : Except Fault (α × List Char)) : Prop :=
  ∀ a rest, result = .ok (a, rest) → P a

theorem returns_error (fault : Fault) : Returns P (.error fault) := nofun

theorem returns_after (cause : Cause) (rest : List Char) : Returns P (after cause rest) := nofun

theorem returns_peeked (cause : Cause) (rest : List Char) : Returns P (peeked cause rest) := nofun

theorem returns_ok {a : α} {rest : List Char} (h : P a) : Returns P (.ok (a, rest)) := by
  intro a' rest' heq
  cases heq
  exact h

theorem returns_bind {result : Except Fault β} {f : β → Except Fault (α × List Char)}
    (h : ∀ b, result = .ok b → Returns P (f b)) : Returns P (result >>= f) := by
  cases result with
  | error fault => exact returns_error fault
  | ok b => exact h b rfl

theorem Returns.map {Q : β → Prop} {f : α → β} {result : Except Fault (α × List Char)}
    (h : Returns P result) (hf : ∀ a, P a → Q (f a)) :
    Returns Q (result.map fun (a, rest) => (f a, rest)) := by
  intro b rest heq
  cases result with
  | error fault => cases heq
  | ok pair =>
      obtain ⟨a, rest⟩ := pair
      cases heq
      exact hf a (h a rest rfl)

end Steps

/-! ## Numbers -/

/-- Scaling a number by powers of ten gives a number. -/
theorem isNumber_scaleByTen {f g : Float} {e : ℤ} (hf : IsNumber f)
    (h : scaleByTen f e = some g) : IsNumber g := by
  fun_induction scaleByTen f e with
  | case1 => cases h
  | case2 f e hsign hrange scaled hfinite =>
      rw [← Option.some.inj h]
      exact isNumber_mul hf (isProper_powerOfTen (by omega))
  | case3 =>
      cases h
      exact hf
  | case4 => cases h
  | case5 f e hsign hrange =>
      cases h
      exact isNumber_div hf (isProper_powerOfTen (by omega))
  | case6 =>
      cases h
      exact hf
  | case7 f e hsign hrange hzero ih =>
      exact ih (isNumber_div hf (isProper_powerOfTen (Nat.le_refl 308))) h

theorem floatOf_returns (negative : Bool) (sig : ℕ) (e : ℤ) (rest : List Char) :
    Returns Number.Numeric (floatOf negative sig e rest) := by
  unfold floatOf
  split
  · exact returns_after _ _
  · rename_i f hf
    have hnumber : IsNumber f := isNumber_scaleByTen (isNumber_ofNat sig) hf
    refine returns_ok ?_
    cases negative with
    | true => exact isNumber_neg hnumber
    | false => exact hnumber

theorem exponentPart_returns (negative : Bool) (sig : ℕ) (base : ℤ) (cs : List Char) :
    Returns Number.Numeric (exponentPart negative sig base cs) := by
  unfold exponentPart
  dsimp only
  split
  · exact returns_after _ _
  · split
    · exact returns_peeked _ _
    · split
      · exact floatOf_returns _ _ _ _
      · split
        · exact returns_after _ _
        · refine returns_ok ?_
          cases negative with
          | true => exact isNumber_neg (isNumber_ofScientific 0 true 1)
          | false => exact isNumber_ofScientific 0 true 1

theorem floatEnd_returns (negative : Bool) (sig : ℕ) (base : ℤ) (cs : List Char) :
    Returns Number.Numeric (floatEnd negative sig base cs) := by
  unfold floatEnd
  split
  · exact exponentPart_returns _ _ _ _
  · exact exponentPart_returns _ _ _ _
  · exact floatOf_returns _ _ _ _

theorem fractionPart_returns (negative : Bool) (sig : ℕ) (base : ℤ) (cs : List Char) :
    Returns Number.Numeric (fractionPart negative sig base cs) := by
  unfold fractionPart
  dsimp only
  split
  · exact floatEnd_returns _ _ _ _
  · split
    · split
      · exact returns_after _ _
      · exact returns_peeked _ _
    · exact floatEnd_returns _ _ _ _

theorem numeric_integerOf (negative : Bool) (sig : ℕ) : (integerOf negative sig).Numeric := by
  unfold integerOf
  split
  · split
    · exact isNumber_neg (isNumber_ofNat sig)
    · exact isNumber_ofInt _
  · exact isNumber_ofInt _

theorem numberEnd_returns (negative : Bool) (sig : ℕ) (cs : List Char) :
    Returns Number.Numeric (numberEnd negative sig cs) := by
  unfold numberEnd
  split
  · exact fractionPart_returns _ _ _ _
  · exact exponentPart_returns _ _ _ _
  · exact exponentPart_returns _ _ _ _
  · exact returns_ok (numeric_integerOf negative sig)

theorem longNumber_returns (negative : Bool) (sig : ℕ) (cs : List Char) :
    Returns Number.Numeric (longNumber negative sig cs) := by
  unfold longNumber
  dsimp only
  split
  · exact fractionPart_returns _ _ _ _
  · exact floatEnd_returns _ _ _ _

/-- A number that is read is a number. -/
theorem unsigned_returns (negative : Bool) (cs : List Char) :
    Returns Number.Numeric (unsigned negative cs) := by
  unfold unsigned
  split
  · exact returns_after _ _
  · split
    · split
      · exact returns_peeked _ _
      · exact numberEnd_returns _ _ _
    · split
      · dsimp only
        split
        · exact longNumber_returns _ _ _
        · exact numberEnd_returns _ _ _
      · exact returns_peeked _ _

/-! ## Values -/

theorem word_returns {P : Value → Prop} {v : Value} (hv : P v) (letters cs : List Char) :
    Returns P (word v letters cs) := by
  fun_induction word v letters cs with
  | case1 => exact returns_ok hv
  | case2 => exact returns_after _ _
  | case3 _ _ _ ih => exact ih
  | case4 => exact returns_peeked _ _

theorem items_returns {item : Step Value} (hitem : ∀ cs, Returns Value.Numeric (item cs))
    (fuel : ℕ) (done : List Value) (cs : List Char) (hdone : ∀ v ∈ done, v.Numeric) :
    Returns (fun vs => ∀ v ∈ vs, Value.Numeric v) (items item fuel done cs) := by
  fun_induction items item fuel done cs with
  | case1 => exact returns_peeked _ _
  | case2 => exact returns_after _ _
  | case3 => exact returns_ok fun v hv => hdone v (List.mem_reverse.1 hv)
  | case4 => exact returns_error _
  | case5 => exact returns_error _
  | case6 fuel done cs c rest hclose hnext next cs' hok v rest' hv ih =>
      exact ih (List.forall_mem_cons.2 ⟨hitem cs' v rest' hv, hdone⟩)

theorem forall_mem_insert {P : Value → Prop} {fields : Fields} {key : String} {v : Value}
    (hfields : ∀ field ∈ fields, P field.2) (hv : P v) :
    ∀ field ∈ fields.insert key v, P field.2 := by
  fun_induction Fields.insert fields key v with
  | case1 => exact List.forall_mem_singleton.2 hv
  | case2 k w rest hlt ih =>
      rw [List.forall_mem_cons] at hfields ⊢
      exact ⟨hfields.1, ih hfields.2⟩
  | case3 w rest hlt =>
      rw [List.forall_mem_cons] at hfields ⊢
      exact ⟨hv, hfields.2⟩
  | case4 k w rest hlt hne =>
      rw [List.forall_mem_cons]
      exact ⟨hv, hfields⟩

theorem entry_returns {item : Step Value} (hitem : ∀ cs, Returns Value.Numeric (item cs))
    (cs : List Char) : Returns (fun field => field.2.Numeric) (entry item cs) := by
  unfold entry
  split
  · exact returns_after _ _
  · refine returns_bind fun (key, rest) _ => returns_bind fun rest _ => ?_
    refine returns_bind fun (v, rest') hv => returns_ok ?_
    exact hitem rest v rest' hv
  · exact returns_peeked _ _
  · exact returns_peeked _ _

theorem entries_returns {item : Step Value} (hitem : ∀ cs, Returns Value.Numeric (item cs))
    (fuel : ℕ) (first : Bool) (done : Fields) (cs : List Char)
    (hdone : ∀ field ∈ done, field.2.Numeric) :
    Returns (fun fields => ∀ field ∈ fields, field.2.Numeric)
      (entries item fuel first done cs) := by
  fun_induction entries item fuel first done cs with
  | case1 => exact returns_peeked _ _
  | case2 => exact returns_after _ _
  | case3 => exact returns_ok hdone
  | case4 => exact returns_error _
  | case5 => exact returns_error _
  | case6 fuel first done cs c rest hclose hnext next cs' hok key v rest' hentry ih =>
      exact ih (forall_mem_insert hdone (entry_returns hitem cs' (key, v) rest' hentry))

/-- A value is put together from words, numbers, texts and the values of the next depth. -/
theorem value_returns_of_below {depth : ℕ}
    (hbelow : ∀ d, depth = d + 1 → ∀ cs, Returns Value.Numeric (value d cs)) (cs : List Char) :
    Returns Value.Numeric (value depth cs) := by
  fun_cases value depth cs with
  | case1 => exact returns_after _ _
  | case2 => exact word_returns .null _ _
  | case3 => exact word_returns (.bool true) _ _
  | case4 => exact word_returns (.bool false) _ _
  | case5 => exact (unsigned_returns true _).map .number
  | case6 => exact (unsigned_returns false _).map .number
  | case7 depth cs c rest =>
      have hany : Returns (fun _ : List Char => True) (stringBody [] rest) := fun _ _ _ => trivial
      exact hany.map (f := fun s => Value.string (String.ofList s)) fun _ _ => numeric_string _
  | case8 => exact returns_peeked _ _
  | case9 cs c rest hnext _ _ _ _ _ _ _ depth =>
      exact (items_returns (hbelow depth rfl) _ _ _ (List.forall_mem_nil _)).map .array
  | case10 => exact returns_peeked _ _
  | case11 cs c rest hnext _ _ _ _ _ _ _ _ depth =>
      exact (entries_returns (hbelow depth rfl) _ _ _ _ (List.forall_mem_nil _)).map .object
  | case12 => exact returns_peeked _ _

theorem value_returns (depth : ℕ) (cs : List Char) : Returns Value.Numeric (value depth cs) := by
  induction depth generalizing cs with
  | zero => exact value_returns_of_below (fun d hd => absurd hd.symm (Nat.succ_ne_zero d)) cs
  | succ depth ih =>
      refine value_returns_of_below (fun d hd => ?_) cs
      obtain rfl : depth = d := by omega
      exact ih

theorem numeric_of_document {depth : ℕ} {cs : List Char} {v : Value}
    (h : document depth cs = .ok v) : v.Numeric := by
  rw [document] at h
  cases hvalue : value depth cs with
  | error fault =>
      rw [hvalue] at h
      cases h
  | ok read =>
      obtain ⟨w, rest⟩ := read
      rw [hvalue] at h
      dsimp only [bind, Except.bind] at h
      split at h
      · cases h
        exact value_returns depth cs _ rest hvalue
      · cases h

/-- No value that is read from a text holds a float that is no number. -/
theorem numeric_of_read {text : String} {v : Value} (h : read text = .ok v) : v.Numeric := by
  rw [read, readNested] at h
  cases hdocument : document nestingLimit text.toList with
  | error fault =>
      rw [hdocument] at h
      cases h
  | ok w =>
      rw [hdocument] at h
      cases h
      exact numeric_of_document hdocument

end SceneMarkup.Json
