/-
  SceneMarkup/Proofs/StylesheetReader.lean --- stylesheets read back from their text.

  WHAT THIS FILE IS FOR.  The reader knows blocks of declarations and nothing of how a
  stylesheet came about: it goes through the text one character at a time, and a value
  ends at the first semicolon that is in no quotes.  It reads the rules that were written
  if and only if every value of theirs is closed (`read_css_iff`).  One value that is not
  is enough to lose the rules, since every value that the reader gives is closed.
-/
import SceneMarkup.Proofs.Style.Lexis
import SceneMarkup.Stylesheet

set_option autoImplicit false

namespace SceneMarkup.Stylesheet

open Style (Lexis Place IsName isNameChar)

/-! ## The reader -/

/-- What stands between quotes in a stylesheet: a backslash takes the next character, and lines are
not broken. -/
def lexis : Lexis := ⟨true, false⟩

/-- Whether a character stands between the parts of a stylesheet. -/
def isBlank (c : Char) : Bool := c == ' ' || c == '\n'

/-- Where a reader is, with what it has read of the rule that is open. -/
inductive Spot where
  /-- between rules -/
  | between
  /-- in the name of a class -/
  | selector (name : List Char)
  /-- behind the name of a class -/
  | opening (name : String)
  /-- between the declarations of a rule -/
  | body (name : String) (ds : List Declaration)
  /-- in the name of a property -/
  | property (name : String) (ds : List Declaration) (chars : List Char)
  /-- behind a colon -/
  | colon (name : String) (ds : List Declaration) (property : String)
  /-- in a value -/
  | value (name : String) (ds : List Declaration) (property : String) (chars : List Char)
      (place : Place)
  deriving Repr, Inhabited

/-- The rules that are complete, and where the reader is. -/
structure Reader where
  rules : Stylesheet
  spot : Spot
  deriving Repr, Inhabited

namespace Reader

/-- The reader after one more character, unless the text is no stylesheet. -/
def step (r : Reader) (c : Char) : Option Reader :=
  match r.spot with
  | .between =>
      if isBlank c then some r
      else if c = '.' then some { r with spot := .selector [] }
      else none
  | .selector name =>
      if isNameChar c then some { r with spot := .selector (name ++ [c]) }
      else if name.isEmpty then none
      else if isBlank c then some { r with spot := .opening (String.ofList name) }
      else if c = '\x7b' then some { r with spot := .body (String.ofList name) [] }
      else none
  | .opening name =>
      if isBlank c then some r
      else if c = '\x7b' then some { r with spot := .body name [] }
      else none
  | .body name ds =>
      if isBlank c then some r
      else if c = '\x7d' then some ⟨r.rules ++ [⟨name, ds⟩], .between⟩
      else if isNameChar c then some { r with spot := .property name ds [c] }
      else none
  | .property name ds chars =>
      if isNameChar c then some { r with spot := .property name ds (chars ++ [c]) }
      else if c = ':' then some { r with spot := .colon name ds (String.ofList chars) }
      else none
  | .colon name ds property =>
      if c = ' ' then some { r with spot := .value name ds property [] .outside } else none
  | .value name ds property chars place =>
      if place = .outside ∧ c = ';' then
        some { r with spot := .body name (ds ++ [(property, String.ofList chars)]) }
      else
        (lexis.step place c).map fun place =>
          { r with spot := .value name ds property (chars ++ [c]) place }

/-- The reader after some more characters. -/
def run (r : Reader) (cs : List Char) : Option Reader := cs.foldlM step r

theorem run_nil (r : Reader) : r.run [] = some r := rfl

theorem run_cons (r : Reader) (c : Char) (cs : List Char) :
    r.run (c :: cs) = (r.step c).bind fun r => r.run cs := List.foldlM_cons

theorem run_append (r : Reader) (cs ds : List Char) :
    r.run (cs ++ ds) = (r.run cs).bind fun r => r.run ds := List.foldlM_append

end Reader

/-- The rules of a text, if the text is a stylesheet. -/
def read (text : String) : Option Stylesheet :=
  match (Reader.mk [] .between).run text.toList with
  | some ⟨rules, .between⟩ => some rules
  | _ => none

/-! ## What was written is read -/

namespace Reader

variable {rules : Stylesheet} {name property : String} {ds : List Declaration}

theorem run_selector {start cs : List Char} (h : ∀ c ∈ cs, isNameChar c = true) :
    run ⟨rules, .selector start⟩ cs = some ⟨rules, .selector (start ++ cs)⟩ := by
  induction cs generalizing start with
  | nil => rw [List.append_nil, run_nil]
  | cons c cs ih =>
      rw [List.forall_mem_cons] at h
      have hstep : step ⟨rules, .selector start⟩ c = some ⟨rules, .selector (start ++ [c])⟩ := by
        simp only [step, h.1, if_true]
      rw [run_cons, hstep, Option.bind_some, ih h.2, List.append_assoc, List.singleton_append]

theorem run_property {start cs : List Char} (h : ∀ c ∈ cs, isNameChar c = true) :
    run ⟨rules, .property name ds start⟩ cs = some ⟨rules, .property name ds (start ++ cs)⟩ := by
  induction cs generalizing start with
  | nil => rw [List.append_nil, run_nil]
  | cons c cs ih =>
      rw [List.forall_mem_cons] at h
      have hstep : step ⟨rules, .property name ds start⟩ c =
          some ⟨rules, .property name ds (start ++ [c])⟩ := by
        simp only [step, h.1, if_true]
      rw [run_cons, hstep, Option.bind_some, ih h.2, List.append_assoc, List.singleton_append]

/-- Inside a value the reader goes on as long as the value does. -/
theorem run_value {start cs : List Char} {place place' : Place}
    (h : lexis.read place cs = some place') :
    run ⟨rules, .value name ds property start place⟩ cs =
      some ⟨rules, .value name ds property (start ++ cs) place'⟩ := by
  induction cs generalizing start place with
  | nil =>
      rw [Lexis.read_nil, Option.some.injEq] at h
      rw [h, List.append_nil, run_nil]
  | cons c cs ih =>
      rw [Lexis.read_cons] at h
      obtain ⟨next, hnext, hrest⟩ := Option.bind_eq_some_iff.1 h
      have hgoesOn : ¬(place = .outside ∧ c = ';') := by
        rintro ⟨rfl, rfl⟩
        rw [Lexis.step_outside_semicolon] at hnext
        cases hnext
      have hstep : step ⟨rules, .value name ds property start place⟩ c =
          some ⟨rules, .value name ds property (start ++ [c]) next⟩ := by
        simp only [step, if_neg hgoesOn, hnext, Option.map_some]
      rw [run_cons, hstep, Option.bind_some, ih hrest, List.append_assoc, List.singleton_append]

theorem run_blank {c : Char} (h : isBlank c = true) (cs : List Char) :
    run ⟨rules, .body name ds⟩ (c :: cs) = run ⟨rules, .body name ds⟩ cs := by
  rw [run_cons]
  simp only [step, h, if_true, Option.bind_some]

/-- A line of a rule. -/
def line (d : Declaration) : String := "  " ++ d.1 ++ ": " ++ d.2 ++ ";\n"

theorem toList_line (d : Declaration) :
    (line d).toList = ' ' :: ' ' :: (d.1.toList ++ ':' :: ' ' :: (d.2.toList ++ [';', '\n'])) := by
  rw [line, String.toList_append, String.toList_append, String.toList_append, String.toList_append]
  simp

theorem run_line {d : Declaration} (hname : IsName d.1) (hvalue : lexis.Closed d.2) :
    run ⟨rules, .body name ds⟩ (line d).toList = some ⟨rules, .body name (ds ++ [d])⟩ := by
  obtain ⟨c, cs, hchars, hc, hcs⟩ := hname.exists_cons
  have hblank : isBlank c = false := by
    rw [isBlank, Bool.or_eq_false_iff, beq_eq_false_iff_ne, beq_eq_false_iff_ne]
    exact ⟨Style.ne_of_isNameChar hc (by decide), Style.ne_of_isNameChar hc (by decide)⟩
  have hbrace : c ≠ '\x7d' := Style.ne_of_isNameChar hc (by decide)
  have hfirst : step ⟨rules, .body name ds⟩ c = some ⟨rules, .property name ds [c]⟩ := by
    simp only [step, hblank, if_neg hbrace, hc, Bool.false_eq_true, if_false, if_true]
  have hcolon : ∀ rest, run ⟨rules, .property name ds (c :: cs)⟩ (':' :: ' ' :: rest) =
      run ⟨rules, .value name ds d.1 [] .outside⟩ rest := by
    intro rest
    rw [← hchars, run_cons]
    show run ⟨rules, .colon name ds (String.ofList d.1.toList)⟩ (' ' :: rest) = _
    rw [String.ofList_toList, run_cons]
    rfl
  rw [toList_line, run_blank (by decide), run_blank (by decide), hchars, List.cons_append, run_cons,
    hfirst, Option.bind_some, run_append, run_property hcs, Option.bind_some,
    List.singleton_append, hcolon, run_append, run_value hvalue, Option.bind_some]
  show run ⟨rules, .body name (ds ++ [(d.1, String.ofList d.2.toList)])⟩ ['\n'] = _
  rw [String.ofList_toList]
  rfl

theorem run_lines {written : List Declaration}
    (h : ∀ d ∈ written, IsName d.1 ∧ lexis.Closed d.2) :
    run ⟨rules, .body name ds⟩ (String.join (written.map line)).toList =
      some ⟨rules, .body name (ds ++ written)⟩ := by
  induction written generalizing ds with
  | nil => rw [List.append_nil]; rfl
  | cons d rest ih =>
      rw [List.forall_mem_cons] at h
      rw [List.map_cons, String.join_cons, String.toList_append, run_append,
        run_line h.1.1 h.1.2, Option.bind_some, ih h.2, List.append_assoc, List.singleton_append]

theorem run_rule {rule : Rule} (hname : IsName rule.className)
    (h : ∀ d ∈ rule.declarations, IsName d.1 ∧ lexis.Closed d.2) :
    run ⟨rules, .between⟩ rule.css.toList = some ⟨rules ++ [rule], .between⟩ := by
  obtain ⟨hne, hall⟩ := hname
  rw [List.all_eq_true] at hall
  have htext : rule.css.toList = '.' :: (rule.className.toList ++
      ' ' :: '\x7b' :: '\n' ::
        ((String.join (rule.declarations.map line)).toList ++ ['\x7d'])) := by
    have hcss : rule.css = "." ++ rule.className ++ " \x7b\n" ++
        String.join (rule.declarations.map line) ++ "\x7d" := rfl
    rw [hcss, String.toList_append, String.toList_append, String.toList_append,
      String.toList_append]
    simp
  have hnotEmpty : rule.className.toList.isEmpty = false := by
    rw [List.isEmpty_eq_false_iff]
    exact fun h => hne (String.toList_inj.1 h)
  have hopens : ∀ rest, run ⟨rules, .selector rule.className.toList⟩
      (' ' :: '\x7b' :: '\n' :: rest) = run ⟨rules, .body rule.className []⟩ rest := by
    intro rest
    have hblank : step ⟨rules, .selector rule.className.toList⟩ ' ' =
        some ⟨rules, .opening rule.className⟩ := by
      simp only [step, hnotEmpty, String.ofList_toList]
      rfl
    rw [run_cons, hblank, Option.bind_some, run_cons]
    show run ⟨rules, .body rule.className []⟩ ('\n' :: rest) = _
    rw [run_blank (by decide)]
  rw [htext, run_cons]
  show run ⟨rules, .selector []⟩ _ = _
  rw [run_append, run_selector hall, Option.bind_some, List.nil_append, hopens, run_append,
    run_lines h, Option.bind_some, List.nil_append]
  rfl

theorem run_between_blank {c : Char} (h : isBlank c = true) (cs : List Char) :
    run ⟨rules, .between⟩ (c :: cs) = run ⟨rules, .between⟩ cs := by
  rw [run_cons]
  simp only [step, h, if_true, Option.bind_some]

theorem run_rules {written : List Rule} (hnames : ∀ rule ∈ written, IsName rule.className)
    (h : ∀ rule ∈ written, ∀ d ∈ rule.declarations, IsName d.1 ∧ lexis.Closed d.2) :
    run ⟨rules, .between⟩ (String.intercalate "\n\n" (written.map Rule.css)).toList =
      some ⟨rules ++ written, .between⟩ := by
  induction written generalizing rules with
  | nil => rw [List.append_nil]; rfl
  | cons rule rest ih =>
      rw [List.forall_mem_cons] at hnames h
      cases rest with
      | nil =>
          rw [List.map_cons, List.map_nil, String.intercalate_singleton]
          exact run_rule hnames.1 h.1
      | cons next rest =>
          have hrest := @ih (rules ++ [rule]) hnames.2 h.2
          rw [List.map_cons] at hrest
          have hblanks : ∀ cs, run ⟨rules ++ [rule], .between⟩ ("\n\n".toList ++ cs) =
              run ⟨rules ++ [rule], .between⟩ cs := by
            intro cs
            show run ⟨rules ++ [rule], .between⟩ ('\n' :: '\n' :: cs) = _
            rw [run_between_blank (by decide), run_between_blank (by decide)]
          rw [List.map_cons, List.map_cons, String.intercalate_cons_cons, String.toList_append,
            String.toList_append, List.append_assoc, run_append, run_rule hnames.1 h.1,
            Option.bind_some, hblanks, hrest, List.append_assoc, List.singleton_append]

end Reader

theorem read_css {sheet : Stylesheet} (hnames : ∀ rule ∈ sheet, IsName rule.className)
    (h : ∀ rule ∈ sheet, ∀ d ∈ rule.declarations, IsName d.1 ∧ lexis.Closed d.2) :
    read (css sheet) = some sheet := by
  have hrun : (Reader.mk [] .between).run (css sheet).toList = some ⟨sheet, .between⟩ := by
    cases sheet with
    | nil => rfl
    | cons rule rest =>
        have hcss : css (rule :: rest) =
            String.intercalate "\n\n" ((rule :: rest).map Rule.css) ++ "\n" := rfl
        rw [hcss, String.toList_append, Reader.run_append, Reader.run_rules hnames h]
        rfl
  rw [read, hrun]

/-! ## What is read is closed -/

/-- All values are closed. -/
def AllClosed (ds : List Declaration) : Prop := ∀ d ∈ ds, lexis.Closed d.2

/-- What has been read of a rule so far is closed, and the value that is open is read to where the
reader is. -/
def Spot.Sound : Spot → Prop
  | .between => True
  | .selector _ => True
  | .opening _ => True
  | .body _ ds => AllClosed ds
  | .property _ ds _ => AllClosed ds
  | .colon _ ds _ => AllClosed ds
  | .value _ ds _ chars place => AllClosed ds ∧ lexis.read .outside chars = some place

/-- All values that have been read are closed. -/
def Reader.Sound (r : Reader) : Prop :=
  (∀ rule ∈ r.rules, AllClosed rule.declarations) ∧ r.spot.Sound

theorem Reader.Sound.step {r next : Reader} (hr : r.Sound) {c : Char} (h : r.step c = some next) :
    next.Sound := by
  obtain ⟨rules, spot⟩ := r
  obtain ⟨hrules, hspot⟩ := hr
  cases spot with
  | between =>
      simp only [Reader.step] at h
      split at h
      · cases h; exact ⟨hrules, trivial⟩
      · split at h
        · cases h; exact ⟨hrules, trivial⟩
        · cases h
  | selector name =>
      simp only [Reader.step] at h
      split at h
      · cases h; exact ⟨hrules, trivial⟩
      · split at h
        · cases h
        · split at h
          · cases h; exact ⟨hrules, trivial⟩
          · split at h
            · cases h; exact ⟨hrules, by intro d hd; simp at hd⟩
            · cases h
  | opening name =>
      simp only [Reader.step] at h
      split at h
      · cases h; exact ⟨hrules, trivial⟩
      · split at h
        · cases h; exact ⟨hrules, by intro d hd; simp at hd⟩
        · cases h
  | body name ds =>
      simp only [Reader.step] at h
      split at h
      · cases h; exact ⟨hrules, hspot⟩
      · split at h
        · cases h
          refine ⟨?_, trivial⟩
          rw [List.forall_mem_append]
          exact ⟨hrules, by rw [List.forall_mem_singleton]; exact hspot⟩
        · split at h
          · cases h; exact ⟨hrules, hspot⟩
          · cases h
  | property name ds chars =>
      simp only [Reader.step] at h
      split at h
      · cases h; exact ⟨hrules, hspot⟩
      · split at h
        · cases h; exact ⟨hrules, hspot⟩
        · cases h
  | colon name ds property =>
      simp only [Reader.step] at h
      split at h
      · cases h; exact ⟨hrules, hspot, rfl⟩
      · cases h
  | value name ds property chars place =>
      obtain ⟨hds, hread⟩ := hspot
      simp only [Reader.step] at h
      split at h
      · rename_i hends
        cases h
        refine ⟨hrules, ?_⟩
        have hclosed : lexis.Closed (String.ofList chars) := by
          rw [Lexis.Closed, String.toList_ofList, hread, hends.1]
        show AllClosed (ds ++ [(property, String.ofList chars)])
        rw [AllClosed, List.forall_mem_append]
        exact ⟨hds, by rw [List.forall_mem_singleton]; exact hclosed⟩
      · obtain ⟨place', hplace', hnext⟩ := Option.map_eq_some_iff.1 h
        rw [← hnext]
        refine ⟨hrules, hds, ?_⟩
        rw [Lexis.read_append, hread, Option.bind_some, Lexis.read_cons, hplace']
        rfl

theorem Reader.Sound.run {r last : Reader} (hr : r.Sound) {cs : List Char}
    (h : r.run cs = some last) : last.Sound := by
  induction cs generalizing r with
  | nil =>
      rw [Reader.run_nil, Option.some.injEq] at h
      rw [← h]
      exact hr
  | cons c cs ih =>
      rw [Reader.run_cons] at h
      obtain ⟨next, hnext, hrest⟩ := Option.bind_eq_some_iff.1 h
      exact ih (hr.step hnext) hrest

theorem allClosed_of_read {text : String} {sheet : Stylesheet} (h : read text = some sheet) :
    ∀ rule ∈ sheet, AllClosed rule.declarations := by
  have hstart : (Reader.mk [] .between).Sound := by
    refine ⟨?_, trivial⟩
    intro rule hrule
    simp at hrule
  unfold read at h
  split at h
  · rename_i rules hrun
    cases h
    exact (hstart.run hrun).1
  · cases h

/-- A stylesheet is read back from its text if and only if all its values are closed. -/
theorem read_css_iff {sheet : Stylesheet} (hnames : ∀ rule ∈ sheet, IsName rule.className)
    (hproperties : ∀ rule ∈ sheet, ∀ d ∈ rule.declarations, IsName d.1) :
    read (css sheet) = some sheet ↔ ∀ rule ∈ sheet, AllClosed rule.declarations := by
  constructor
  · exact allClosed_of_read
  · intro h
    exact read_css hnames fun rule hrule d hd => ⟨hproperties rule hrule d hd, h rule hrule d hd⟩

end SceneMarkup.Stylesheet
