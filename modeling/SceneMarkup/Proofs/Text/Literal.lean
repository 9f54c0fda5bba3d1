/-
  SceneMarkup/Proofs/Text/Literal.lean --- string literals of a script.

  WHAT THIS FILE IS FOR.  A string literal between single quotes ends at the first quote
  that no backslash takes, and a line may only be broken behind a backslash.  What it
  stands for is a list of 16-bit units.  An escape stands for less than it is written
  with, so a text is the content of a literal that stands for it just if it has no escape
  (`readLiteral_eq_units_iff`).
-/
import SceneMarkup.Json.Reader

set_option autoImplicit false

namespace SceneMarkup.Text

/-! ## Units -/

/-- The 16-bit units of a code point; those beyond 16 bits have two. -/
def unitsOfCode (code : Nat) : List Nat :=
  if code < 0x10000 then [code]
  else [0xD800 + (code - 0x10000) / 0x400, 0xDC00 + (code - 0x10000) % 0x400]

/-- The 16-bit units of a text. -/
def units (cs : List Char) : List Nat := cs.flatMap fun c => unitsOfCode c.toNat

theorem units_cons (c : Char) (cs : List Char) :
    units (c :: cs) = unitsOfCode c.toNat ++ units cs := List.flatMap_cons

theorem units_append (cs ds : List Char) : units (cs ++ ds) = units cs ++ units ds :=
  List.flatMap_append

theorem length_unitsOfCode (code : Nat) :
    0 < (unitsOfCode code).length ∧ (unitsOfCode code).length ≤ 2 := by
  unfold unitsOfCode
  split
  · exact ⟨Nat.succ_pos 0, Nat.le_succ 1⟩
  · exact ⟨Nat.succ_pos 1, Nat.le_refl 2⟩

/-! ## Reading a literal -/

/-- Where in a literal a reader is. -/
inductive LiteralSpot where
  /-- between the quotes, and in no escape -/
  | inside
  /-- behind a backslash -/
  | escape
  /-- behind an escaped zero, which is not the first digit of a number -/
  | zero
  /-- behind a carriage return with a backslash in front of it, which breaks the line together
  with a line feed -/
  | carriage
  /-- in an escape that goes on with some hexadecimal digits -/
  | digits (left code : Nat)
  /-- behind the letter of an escape with four digits or with braces -/
  | letter
  /-- behind the opening brace of an escape -/
  | opened
  /-- behind at least one digit between the braces of an escape -/
  | braces (code : Nat)
  deriving DecidableEq, Repr, Inhabited

/-- What becomes of a literal with one more character. -/
inductive LiteralStep where
  /-- the literal ends -/
  | ends
  /-- it goes on, and the units are added to what it stands for -/
  | goes (added : List Nat) (next : LiteralSpot)
  /-- it is no literal -/
  | fails
  deriving DecidableEq, Repr, Inhabited

namespace LiteralSpot

/-- One more character between the quotes. -/
def stepInside (c : Char) : LiteralStep :=
  if c = '\x27' then .ends
  else if c = '\\' then .goes [] .escape
  else if c = '\n' ∨ c = '\r' then .fails
  else .goes (unitsOfCode c.toNat) .inside

/-- One more character behind a backslash that has no meaning of its own there. A broken line stands
for nothing, and any other character for itself. -/
def stepOther (c : Char) : LiteralStep :=
  if c.isDigit then .fails
  else if c = '\n' ∨ c.toNat = 0x2028 ∨ c.toNat = 0x2029 then .goes [] .inside
  else .goes (unitsOfCode c.toNat) .inside

/-- One more character behind a backslash. Letters with a meaning stand for control characters or
begin longer escapes. -/
def stepEscape (c : Char) : LiteralStep :=
  match c with
  | 'b' => .goes [0x08] .inside
  | 't' => .goes [0x09] .inside
  | 'n' => .goes [0x0A] .inside
  | 'v' => .goes [0x0B] .inside
  | 'f' => .goes [0x0C] .inside
  | 'r' => .goes [0x0D] .inside
  | 'x' => .goes [] (.digits 2 0)
  | 'u' => .goes [] .letter
  | '0' => .goes [0] .zero
  | '\r' => .goes [] .carriage
  | _ => stepOther c

/-- One more of the `left` digits of an escape. -/
def stepDigits (left code : Nat) (c : Char) : LiteralStep :=
  match Json.hexValue? c with
  | none => .fails
  | some d =>
      if left ≤ 1 then .goes [16 * code + d] .inside
      else .goes [] (.digits (left - 1) (16 * code + d))

/-- One more character between the braces of an escape. -/
def stepBraces (code : Nat) (c : Char) : LiteralStep :=
  if c = '\x7d' then .goes (unitsOfCode code) .inside
  else
    match Json.hexValue? c with
    | none => .fails
    | some d => if 16 * code + d ≤ 0x10FFFF then .goes [] (.braces (16 * code + d)) else .fails

/-- One more character of a literal. -/
def step : LiteralSpot → Char → LiteralStep
  | .inside, c => stepInside c
  | .escape, c => stepEscape c
  | .zero, c => if c.isDigit then .fails else stepInside c
  | .carriage, c => if c = '\n' then .goes [] .inside else stepInside c
  | .digits left code, c => stepDigits left code c
  | .letter, c => if c = '\x7b' then .goes [] .opened else stepDigits 4 0 c
  | .opened, c => if c = '\x7d' then .fails else stepBraces 0 c
  | .braces code, c => stepBraces code c

/-- How many more units an escape may stand for than characters of it are still to come. -/
def owed : LiteralSpot → Nat
  | .braces _ => 1
  | _ => 0

end LiteralSpot

open LiteralSpot

/-- What the rest of a literal stands for, and what stands behind it. -/
def readLiteral : LiteralSpot → List Char → Option (List Nat × List Char)
  | _, [] => none
  | spot, c :: cs =>
      match spot.step c with
      | .ends => some ([], cs)
      | .goes added next => (readLiteral next cs).map fun (value, rest) => (added ++ value, rest)
      | .fails => none

/-! ## Lengths -/

section

variable {c : Char} {spot next : LiteralSpot} {added : List Nat}

theorem length_stepInside (h : stepInside c = .goes added next) :
    added.length + next.owed ≤ (unitsOfCode c.toNat).length := by
  unfold stepInside at h
  split at h
  · cases h
  · split at h
    · cases h
      exact Nat.zero_le _
    · split at h
      · cases h
      · cases h
        exact Nat.le_refl _

theorem length_stepOther (h : stepOther c = .goes added next) :
    added.length + next.owed ≤ (unitsOfCode c.toNat).length := by
  unfold stepOther at h
  split at h
  · cases h
  · split at h
    · cases h
      exact Nat.zero_le _
    · cases h
      exact Nat.le_refl _

theorem length_stepEscape (h : stepEscape c = .goes added next) :
    added.length + next.owed ≤ (unitsOfCode c.toNat).length := by
  have hpos := (length_unitsOfCode c.toNat).1
  unfold stepEscape at h
  split at h
  case h_11 => exact length_stepOther h
  all_goals
    cases h
    exact Nat.le_trans (by decide) (Nat.succ_le_of_lt hpos)

theorem length_stepDigits {left code : Nat} (h : stepDigits left code c = .goes added next) :
    added.length + next.owed ≤ (unitsOfCode c.toNat).length := by
  unfold stepDigits at h
  split at h
  · cases h
  · split at h
    · cases h
      exact (length_unitsOfCode c.toNat).1
    · cases h
      exact Nat.zero_le _

theorem length_stepBraces {code : Nat} (h : stepBraces code c = .goes added next) :
    added.length + next.owed ≤ (unitsOfCode c.toNat).length + 1 ∧
      (c ≠ '\x7d' → added.length + next.owed ≤ (unitsOfCode c.toNat).length) := by
  have hpos := (length_unitsOfCode c.toNat).1
  unfold stepBraces at h
  split at h
  · rename_i hclosed
    cases h
    have htwo := (length_unitsOfCode code).2
    exact ⟨by simp only [owed]; omega, fun hopen => absurd hclosed hopen⟩
  · split at h
    · cases h
    · split at h
      · cases h
        exact ⟨Nat.le_succ_of_le hpos, fun _ => hpos⟩
      · cases h

/-- A step adds no more units than the character has, but for what is owed. -/
theorem length_step (h : spot.step c = .goes added next) :
    added.length + next.owed ≤ (unitsOfCode c.toNat).length + spot.owed := by
  cases spot with
  | inside => exact length_stepInside h
  | escape => exact length_stepEscape h
  | zero =>
      rw [step] at h
      split at h
      · cases h
      · exact length_stepInside h
  | carriage =>
      rw [step] at h
      split at h
      · cases h
        exact Nat.zero_le _
      · exact length_stepInside h
  | digits left code => exact length_stepDigits h
  | letter =>
      rw [step] at h
      split at h
      · cases h
        exact Nat.zero_le _
      · exact length_stepDigits h
  | opened =>
      rw [step] at h
      split at h
      · cases h
      · rename_i hopen
        exact (length_stepBraces h).2 hopen
  | braces code => exact (length_stepBraces h).1

end

/-- What a literal stands for is shorter than the literal with its closing quote. -/
theorem length_readLiteral {spot : LiteralSpot} {cs rest : List Char} {value : List Nat}
    (h : readLiteral spot cs = some (value, rest)) :
    value.length + (units rest).length < (units cs).length + spot.owed := by
  induction cs generalizing spot value with
  | nil => simp [readLiteral] at h
  | cons c cs ih =>
      have hpos := (length_unitsOfCode c.toNat).1
      rw [units_cons, List.length_append]
      rw [readLiteral] at h
      split at h
      · cases h
        rw [List.length_nil]
        omega
      · rename_i added next hstep
        obtain ⟨⟨later, rest⟩, hread, heq⟩ := Option.map_eq_some_iff.1 h
        cases heq
        have hlater := ih hread
        have hadded := length_step hstep
        rw [List.length_append]
        omega
      · cases h

/-- If a literal ends with `stop` wherever a reader is in front of it, then it ends there or before,
and what follows `stop` is left over. -/
theorem exists_rest_of_readLiteral {spot : LiteralSpot} {stop after : List Char}
    (hstop : ∀ spot value rest,
      readLiteral spot (stop ++ after) = some (value, rest) → rest = after)
    {cs rest : List Char} {value : List Nat}
    (h : readLiteral spot (cs ++ (stop ++ after)) = some (value, rest)) :
    ∃ more, rest = more ++ after := by
  induction cs generalizing spot value with
  | nil => exact ⟨[], hstop spot value rest h⟩
  | cons c cs ih =>
      rw [List.cons_append, readLiteral] at h
      split at h
      · cases h
        exact ⟨cs ++ stop, (List.append_assoc cs stop after).symm⟩
      · obtain ⟨⟨later, rest⟩, hread, heq⟩ := Option.map_eq_some_iff.1 h
        cases heq
        exact ih hread
      · cases h

/-! ## Plain content -/

/-- Whether a character stands for itself in a literal. -/
def isLiteralChar (c : Char) : Bool := c != '\x27' && c != '\\' && c != '\n' && c != '\r'

theorem stepInside_of_isLiteralChar {c : Char} (h : isLiteralChar c = true) :
    stepInside c = .goes (unitsOfCode c.toNat) .inside := by
  simp only [isLiteralChar, Bool.and_eq_true, bne_iff_ne] at h
  obtain ⟨⟨⟨hquote, hbackslash⟩, hfeed⟩, hreturn⟩ := h
  rw [stepInside, if_neg hquote, if_neg hbackslash, if_neg (not_or.2 ⟨hfeed, hreturn⟩)]

theorem readLiteral_cons_of_isLiteralChar {c : Char} (h : isLiteralChar c = true)
    (cs : List Char) : readLiteral .inside (c :: cs) =
      (readLiteral .inside cs).map fun (value, rest) => (unitsOfCode c.toNat ++ value, rest) := by
  rw [readLiteral, step, stepInside_of_isLiteralChar h]

/-- A text without quotes, backslashes and broken lines stands for itself. -/
theorem readLiteral_of_isLiteralChar {cs : List Char} (h : ∀ c ∈ cs, isLiteralChar c = true)
    (after : List Char) : readLiteral .inside (cs ++ '\x27' :: after) = some (units cs, after) := by
  induction cs with
  | nil => rfl
  | cons c cs ih =>
      rw [List.forall_mem_cons] at h
      rw [List.cons_append, readLiteral_cons_of_isLiteralChar h.1, ih h.2, Option.map_some,
        units_cons]

/-- No escape goes on over a dot. -/
theorem step_dot (spot : LiteralSpot) :
    spot.step '.' = .fails ∨ spot.step '.' = .goes (units ['.']) .inside := by
  cases spot with
  | digits left code => exact .inl rfl
  | braces code => exact .inl rfl
  | letter => exact .inl rfl
  | opened => exact .inl rfl
  | _ => exact .inr rfl

section

variable {cs more after rest : List Char} {value : List Nat}

/-- A literal that comes to a dot and then to plain characters ends with the next quote. -/
theorem rest_eq_of_readLiteral_dot {spot : LiteralSpot}
    (hmore : ∀ c ∈ more, isLiteralChar c = true)
    (h : readLiteral spot ('.' :: more ++ '\x27' :: after) = some (value, rest)) :
    rest = after := by
  rw [List.cons_append, readLiteral] at h
  rcases step_dot spot with hstep | hstep
  · simp only [hstep] at h
    cases h
  · simp only [hstep, readLiteral_of_isLiteralChar hmore] at h
    cases h
    rfl

/-- Behind a backslash, too few characters are left for the units of all that is written. -/
theorem length_le_of_readLiteral_escape (hmore : ∀ c ∈ more, isLiteralChar c = true)
    (h : readLiteral .escape (cs ++ ('.' :: more ++ '\x27' :: after)) = some (value, rest)) :
    value.length ≤ (units (cs ++ '.' :: more)).length := by
  have hshort := length_readLiteral h
  have hjoin : '.' :: more ++ '\x27' :: after = ('.' :: more ++ ['\x27']) ++ after :=
    (List.append_assoc ('.' :: more) ['\x27'] after).symm
  rw [hjoin] at h
  obtain ⟨left, rfl⟩ := exists_rest_of_readLiteral
    (fun spot value rest hread =>
      rest_eq_of_readLiteral_dot hmore (hjoin ▸ hread)) h
  have hquote : (units ('\x27' :: after)).length = 1 + (units after).length := by
    rw [units_cons, List.length_append]
    rfl
  rw [← List.append_assoc, units_append _ ('\x27' :: after), List.length_append, hquote,
    units_append left, List.length_append] at hshort
  change _ < _ + 0 at hshort
  omega

/-- A character that does not stand for itself ends the literal, breaks it or begins an escape. -/
theorem stepInside_of_not_isLiteralChar {c : Char} (h : isLiteralChar c = false) :
    stepInside c = .ends ∨ stepInside c = .fails ∨ stepInside c = .goes [] .escape := by
  unfold stepInside
  split
  · exact .inl rfl
  · split
    · exact .inr (.inr rfl)
    · split
      · exact .inr (.inl rfl)
      · rename_i hquote hbackslash hbreak
        rw [not_or] at hbreak
        simp [isLiteralChar, hquote, hbackslash, hbreak] at h

/-- A literal with a character in it that does not stand for itself is too short from there on. -/
theorem length_lt_of_not_isLiteralChar {c : Char} (hmore : ∀ c ∈ more, isLiteralChar c = true)
    (hplain : isLiteralChar c = false)
    (h : readLiteral .inside (c :: (cs ++ ('.' :: more ++ '\x27' :: after))) = some (value, rest)) :
    value.length < (unitsOfCode c.toNat ++ units (cs ++ '.' :: more)).length := by
  have hpos := (length_unitsOfCode c.toNat).1
  rw [List.length_append]
  rw [readLiteral, step] at h
  rcases stepInside_of_not_isLiteralChar hplain with hstep | hstep | hstep
  · simp only [hstep] at h
    cases h
    exact Nat.add_pos_left hpos _
  · simp only [hstep] at h
    cases h
  · simp only [hstep] at h
    obtain ⟨⟨later, behind⟩, hlater, heq⟩ := Option.map_eq_some_iff.1 h
    have hlength : later.length = value.length := congrArg (fun read => read.1.length) heq
    have hshort := length_le_of_readLiteral_escape hmore hlater
    omega

/-- What is written between quotes, with an extension at its end, stands for itself just if no
character of it is a quote or a backslash or breaks the line. -/
theorem readLiteral_eq_units_iff (hmore : ∀ c ∈ more, isLiteralChar c = true) :
    (readLiteral .inside (cs ++ ('.' :: more ++ '\x27' :: after))).map Prod.fst =
        some (units (cs ++ '.' :: more)) ↔
      ∀ c ∈ cs, isLiteralChar c = true := by
  constructor
  · intro h
    induction cs with
    | nil => exact List.forall_mem_nil _
    | cons c cs ih =>
        rw [List.forall_mem_cons]
        rw [List.cons_append,
          show units (c :: cs ++ '.' :: more) = _ from units_cons c (cs ++ '.' :: more)] at h
        cases hplain : isLiteralChar c with
        | true =>
            refine ⟨rfl, ih ?_⟩
            rw [readLiteral_cons_of_isLiteralChar hplain, Option.map_map] at h
            obtain ⟨⟨value, rest⟩, hread, hvalue⟩ := Option.map_eq_some_iff.1 h
            rw [hread, Option.map_some]
            exact congrArg some (List.append_cancel_left hvalue)
        | false =>
            obtain ⟨⟨value, rest⟩, hread, hvalue⟩ := Option.map_eq_some_iff.1 h
            have hshort := length_lt_of_not_isLiteralChar hmore hplain hread
            exact absurd (congrArg List.length hvalue) (Nat.ne_of_lt hshort)
  · intro h
    have hall : ∀ c ∈ cs ++ '.' :: more, isLiteralChar c = true := by
      rw [List.forall_mem_append, List.forall_mem_cons]
      exact ⟨h, rfl, hmore⟩
    rw [← List.append_assoc, readLiteral_of_isLiteralChar hall]
    rfl

end

end SceneMarkup.Text
