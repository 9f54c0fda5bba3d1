/-
  SceneMarkup/Proofs/Text/Indent.lean --- what moving lines to the right does to a text.

  WHAT THIS FILE IS FOR.  A text whose lines are moved has blanks in front of it and behind
  its line feeds (`indent_eq`).  What becomes of the rest can be followed piece by piece
  (`Moves`), since nothing depends on what stands in front of a piece.
-/
import SceneMarkup.Text.Lines

set_option autoImplicit false

namespace SceneMarkup.Text

/-! ## Moving lines -/

/-- Whether a text begins with a line that ends and is blank. -/
def beginsBlank : List Char → Bool
  | [] => false
  | c :: rest => c == '\n' || (isBlank c && beginsBlank rest)

/-- What is put in front of a text when its first line is moved. -/
def margin (count : Nat) (cs : List Char) : List Char :=
  if beginsBlank cs then [] else List.replicate count ' '

/-- A text with all its lines but the first moved to the right. -/
def moveLater (count : Nat) : List Char → List Char
  | [] => []
  | c :: rest =>
      if c = '\n' then '\n' :: (margin count rest ++ moveLater count rest)
      else if c = '\r' && rest.head? == some '\n' then moveLater count rest
      else c :: moveLater count rest

variable {count : Nat} {c : Char}

theorem ne_feed_of_not_isBlank (h : isBlank c = false) : c ≠ '\n' := by
  rintro rfl
  exact absurd h (by decide)

theorem ne_return_of_not_isBlank (h : isBlank c = false) : c ≠ '\r' := by
  rintro rfl
  exact absurd h (by decide)

theorem beginsBlank_cons (hfeed : c ≠ '\n') (rest : List Char) :
    beginsBlank (c :: rest) = (isBlank c && beginsBlank rest) := by
  rw [beginsBlank, beq_false_of_ne hfeed, Bool.false_or]

theorem moveLater_feed (rest : List Char) :
    moveLater count ('\n' :: rest) = '\n' :: (margin count rest ++ moveLater count rest) :=
  if_pos rfl

theorem moveLater_cons (hfeed : c ≠ '\n') (hreturn : c ≠ '\r') (rest : List Char) :
    moveLater count (c :: rest) = c :: moveLater count rest := by
  rw [moveLater, if_neg hfeed, if_neg (by simp [hreturn])]

/-- A text that does not end in a blank has a first line, which is blank if the text begins so, and
lines behind it, which are moved. -/
theorem exists_lines (count : Nat) (front : List Char) (hc : isBlank c = false) :
    ∃ first others, lines (front ++ [c]) = first :: others ∧
      first.all isBlank = beginsBlank (front ++ [c]) ∧
      first ++ others.flatMap (fun line => '\n' :: indentLine count line) =
        moveLater count (front ++ [c]) := by
  induction front with
  | nil =>
      have hfeed := ne_feed_of_not_isBlank hc
      refine ⟨[c], [], ?_, ?_, ?_⟩
      · simp [lines, hfeed]
      · simp [beginsBlank, hfeed, hc]
      · simp [moveLater, hfeed]
  | cons d front ih =>
      obtain ⟨first, others, hlines, hblank, hmoved⟩ := ih
      rw [List.cons_append, lines, moveLater, hlines]
      split
      · rename_i hfeed
        refine ⟨[], first :: others, rfl, ?_, ?_⟩
        · rw [beginsBlank, hfeed]
          rfl
        · rw [← hmoved, margin, ← hblank, List.flatMap_cons, indentLine]
          split
          · rfl
          · simp
      · rename_i hfeed
        split
        · rename_i hreturn
          rw [Bool.and_eq_true, decide_eq_true_eq, beq_iff_eq] at hreturn
          refine ⟨first, others, rfl, ?_, hmoved⟩
          obtain ⟨rest, hrest⟩ := List.head?_eq_some_iff.1 hreturn.2
          rw [hblank, beginsBlank_cons hfeed, hreturn.1, hrest, beginsBlank]
          rfl
        · refine ⟨d :: first, others, rfl, ?_, ?_⟩
          · rw [List.all_cons, hblank, beginsBlank_cons hfeed]
          · rw [List.cons_append, hmoved]

theorem intercalate_cons (sep first : List Char) (others : List (List Char)) :
    List.intercalate sep (first :: others) = first ++ others.flatMap fun line => sep ++ line := by
  induction others generalizing first with
  | nil => simp [List.intercalate]
  | cons second rest ih =>
      rw [List.intercalate_cons_cons, ih, List.flatMap_cons, List.append_assoc, List.append_assoc]

/-- Moving the lines of a text moves its first line and the others. -/
theorem indent_eq (count : Nat) (front : List Char) (hc : isBlank c = false) :
    indent count (front ++ [c]) =
      margin count (front ++ [c]) ++ moveLater count (front ++ [c]) := by
  obtain ⟨first, others, hlines, hblank, hmoved⟩ := exists_lines count front hc
  rw [indent, hlines, List.map_cons, intercalate_cons, List.flatMap_map, ← hmoved, margin, ← hblank,
    indentLine]
  split
  · rfl
  · rw [List.append_assoc]
    rfl

/-! ## Pieces of a text -/

/-- What becomes of a piece of a text when lines are moved, whatever stands behind it. -/
def Moves (count : Nat) (cs moved : List Char) : Prop :=
  ∀ rest, moveLater count (cs ++ rest) = moved ++ moveLater count rest

theorem Moves.append {first others a b : List Char} (hfirst : Moves count first a)
    (hothers : Moves count others b) : Moves count (first ++ others) (a ++ b) := by
  intro rest
  rw [List.append_assoc, hfirst, hothers, List.append_assoc]

theorem Moves.moveLater_eq {cs moved : List Char} (h : Moves count cs moved) :
    moveLater count cs = moved := by
  have := h []
  rwa [List.append_nil, moveLater, List.append_nil] at this

/-- Whether a piece of a text breaks no line. -/
def isUnbroken (cs : List Char) : Bool := cs.all fun c => c != '\n' && c != '\r'

theorem isUnbroken_append (first others : List Char) :
    isUnbroken (first ++ others) = (isUnbroken first && isUnbroken others) := List.all_append

theorem isUnbroken_cons (c : Char) (cs : List Char) :
    isUnbroken (c :: cs) = true ↔ (c ≠ '\n' ∧ c ≠ '\r') ∧ isUnbroken cs = true := by
  simp [isUnbroken]

/-- A piece of a line stays as it is. -/
theorem moves_self {cs : List Char} (h : isUnbroken cs = true) : Moves count cs cs := by
  intro rest
  induction cs with
  | nil => rfl
  | cons c cs ih =>
      rw [isUnbroken_cons] at h
      rw [List.cons_append, moveLater_cons h.1.1 h.1.2, ih h.2, List.cons_append]

theorem beginsBlank_append (front rest : List Char) (hc : isBlank c = false) :
    beginsBlank (front ++ c :: rest) = beginsBlank front := by
  induction front with
  | nil =>
      rw [List.nil_append, beginsBlank_cons (ne_feed_of_not_isBlank hc), hc, Bool.false_and,
        beginsBlank]
  | cons d front ih => rw [List.cons_append, beginsBlank, ih, beginsBlank]

/-- What stands in front of a character that is not blank is moved like a text of its own. -/
theorem moves_closed (front : List Char) (hc : isBlank c = false) :
    Moves count (front ++ [c]) (moveLater count front ++ [c]) := by
  intro rest
  have hfeed := ne_feed_of_not_isBlank hc
  rw [List.append_assoc, List.append_assoc, List.singleton_append, List.singleton_append]
  induction front with
  | nil => exact moveLater_cons hfeed (ne_return_of_not_isBlank hc) rest
  | cons d front ih =>
      have hhead : (front ++ c :: rest).head? == some '\n' ↔ front.head? == some '\n' := by
        cases front <;> simp [hfeed]
      rw [List.cons_append, moveLater, moveLater, margin, beginsBlank_append front rest hc,
        ← margin, ih, Bool.eq_iff_iff.2 hhead]
      split
      · rw [List.cons_append, List.append_assoc]
      · split
        · rfl
        · rfl

theorem beginsBlank_blanks (level : Nat) (rest : List Char) (hc : isBlank c = false) :
    beginsBlank (List.replicate level ' ' ++ c :: rest) = false := by
  rw [beginsBlank_append _ _ hc]
  induction level with
  | zero => rfl
  | succ level ih => rw [List.replicate_succ, beginsBlank_cons (by decide), ih, Bool.and_false]

/-- A line that is not blank is moved. -/
theorem moves_line (level : Nat) (hc : isBlank c = false) {cs moved : List Char}
    (h : Moves count (c :: cs) moved) :
    Moves count ('\n' :: (List.replicate level ' ' ++ c :: cs))
      ('\n' :: (List.replicate (count + level) ' ' ++ moved)) := by
  intro rest
  have hblanks : Moves count (List.replicate level ' ') (List.replicate level ' ') :=
    moves_self (by simp [isUnbroken])
  have hrest : moveLater count (c :: (cs ++ rest)) = moved ++ moveLater count rest := h rest
  rw [List.cons_append, moveLater_feed, List.append_assoc, List.cons_append, margin,
    beginsBlank_blanks level _ hc, if_neg Bool.false_ne_true, hblanks, hrest,
    ← List.replicate_append_replicate, List.cons_append, List.append_assoc, List.append_assoc]

/-! ## Texts that stay -/

theorem beginsBlank_of_not_mem {cs : List Char} (h : '\n' ∉ cs) : beginsBlank cs = false := by
  induction cs with
  | nil => rfl
  | cons c cs ih =>
      rw [List.mem_cons, not_or] at h
      rw [beginsBlank_cons (Ne.symm h.1), ih h.2, Bool.and_false]

theorem moveLater_of_not_mem {cs : List Char} (h : '\n' ∉ cs) : moveLater count cs = cs := by
  induction cs with
  | nil => rfl
  | cons c cs ih =>
      rw [List.mem_cons, not_or] at h
      have hhead : (cs.head? == some '\n') = false := by
        refine beq_false_of_ne fun hsome => h.2 ?_
        exact List.mem_of_mem_head? hsome
      rw [moveLater, if_neg (Ne.symm h.1), hhead, Bool.and_false, if_neg Bool.false_ne_true, ih h.2]

/-- Where a line ends, blanks come in: at the latest in front of the last line. -/
theorem count_lt_count_moveLater (hcount : 0 < count) {cs : List Char} (h : '\n' ∈ cs) :
    cs.count ' ' < (moveLater count cs).count ' ' := by
  induction cs with
  | nil => cases h
  | cons c cs ih =>
      rw [moveLater]
      split
      · rename_i hfeed
        rw [hfeed, List.count_cons_of_ne (by decide), List.count_cons_of_ne (by decide),
          List.count_append]
        by_cases hmem : '\n' ∈ cs
        · exact Nat.lt_of_lt_of_le (ih hmem) (Nat.le_add_left _ _)
        · rw [moveLater_of_not_mem hmem, margin, beginsBlank_of_not_mem hmem,
            if_neg Bool.false_ne_true, List.count_replicate_self]
          exact Nat.lt_add_of_pos_left hcount
      · rename_i hfeed
        have hmem : '\n' ∈ cs := (List.mem_cons.1 h).resolve_left (Ne.symm hfeed)
        split
        · rename_i hreturn
          rw [Bool.and_eq_true, decide_eq_true_eq] at hreturn
          rw [hreturn.1, List.count_cons_of_ne (by decide)]
          exact ih hmem
        · rw [List.count_cons, List.count_cons]
          exact Nat.add_lt_add_right (ih hmem) _

/-- Moving lines keeps a text just if it is one line. -/
theorem moveLater_eq_self_iff (hcount : 0 < count) {cs : List Char} :
    moveLater count cs = cs ↔ '\n' ∉ cs := by
  constructor
  · intro hsame hmem
    have hlt := count_lt_count_moveLater hcount hmem
    rw [hsame] at hlt
    exact Nat.lt_irrefl _ hlt
  · exact moveLater_of_not_mem

end SceneMarkup.Text
