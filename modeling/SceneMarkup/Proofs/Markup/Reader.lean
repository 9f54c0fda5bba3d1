/-
  SceneMarkup/Proofs/Markup/Reader.lean --- markup read from its text.

  WHAT THIS FILE IS FOR.  The reader knows tags, entities and line breaks, and nothing of
  how a text of markup came about.  It goes through the text one character at a time and
  finds tokens (`Scanner`); a forest is then put together from the last token to the first
  (`ending`), so that what stands behind a token is complete when the token is looked at.
-/
import SceneMarkup.Proofs.Markup.Merged
import SceneMarkup.Proofs.Style.Lexis

set_option autoImplicit false

namespace SceneMarkup.Markup

open Style (isNameChar)

/-! ## Tokens -/

/-- A part of the text of some markup. -/
inductive Token where
  | char (c : Char)
  | opens (tag : Tag)
  | closes (name : String)
  deriving DecidableEq, Repr, Inhabited

/-- Where in a text of markup a reader is. -/
inductive Spot where
  /-- in the content of an element; right behind a tag the line may be broken -/
  | content (behindTag : Bool)
  /-- in the blanks at the beginning of a line -/
  | line
  /-- behind an ampersand -/
  | entity (chars : List Char)
  /-- behind an opening brace -/
  | braces (chars : List Char)
  /-- behind an opening bracket -/
  | bracket
  /-- in the name of an opening tag -/
  | name (chars : List Char)
  /-- behind a blank in an opening tag -/
  | gap (tag : Tag)
  /-- behind the slash of a tag that closes itself -/
  | slash (tag : Tag)
  /-- in the name of an attribute -/
  | key (tag : Tag) (chars : List Char)
  /-- behind the name of an attribute -/
  | equals (tag : Tag) (name : String)
  /-- in the value of an attribute -/
  | value (tag : Tag) (name : String) (chars : List Char)
  /-- behind an ampersand in the value of an attribute -/
  | valueEntity (tag : Tag) (name : String) (chars entity : List Char)
  /-- behind the value of an attribute -/
  | quote (tag : Tag)
  /-- in the name of a closing tag -/
  | closing (chars : List Char)
  deriving Repr, Inhabited

/-- The character that an entity stands for. -/
def entity? : List Char → Option Char
  | ['a', 'm', 'p'] => some '&'
  | ['l', 't'] => some '<'
  | ['g', 't'] => some '>'
  | ['q', 'u', 'o', 't'] => some '"'
  | _ => none

/-- The brace that is quoted between braces. What comes behind the first brace is given. -/
def quotedBrace? : List Char → Option Char
  | ['\x27', '\x7b', '\x27', '\x7d'] => some '\x7b'
  | ['\x27', '\x7d', '\x27', '\x7d'] => some '\x7d'
  | _ => none

/-- The name of the attribute that is read as the class. -/
def classKey : Flavor → String
  | .html => "class"
  | .jsx => "className"

/-- A tag with one more attribute, which may be the class. -/
def withAttribute (flavor : Flavor) (tag : Tag) (a : String × String) : Tag :=
  if a.1 = classKey flavor then { tag with className := some a.2 }
  else { tag with attributes := tag.attributes ++ [a] }

/-- The tokens that are complete, and where the reader is. -/
structure Scanner where
  tokens : List Token
  spot : Spot
  deriving Repr, Inhabited

namespace Scanner

variable (flavor : Flavor)

/-- The reader behind one more character of a text. -/
def behindChar (tokens : List Token) (c : Char) : Scanner := ⟨tokens ++ [.char c], .content false⟩

/-- The reader behind an opening tag. A line break has no content. -/
def behindOpening (tokens : List Token) (tag : Tag) : Scanner :=
  if tag = Tag.named "br" then behindChar tokens '\n'
  else ⟨tokens ++ [.opens tag], .content true⟩

/-- The reader behind a tag that closes itself. -/
def behindEmpty (tokens : List Token) (tag : Tag) : Scanner :=
  if tag = Tag.named "br" then behindChar tokens '\n'
  else ⟨tokens ++ [.opens tag, .closes tag.name], .content true⟩

/-- The reader after one more character behind the name of a tag or behind an attribute. -/
def stepTag (tokens : List Token) (tag : Tag) (c : Char) : Option Scanner :=
  if c = ' ' then some ⟨tokens, .gap tag⟩
  else if c = '>' then some (behindOpening tokens tag)
  else none

/-- The reader after one more character, unless the text is no markup. -/
def step (r : Scanner) (c : Char) : Option Scanner :=
  match r.spot with
  | .content behindTag =>
      if c = '<' then some { r with spot := .bracket }
      else if c = '&' then some { r with spot := .entity [] }
      else if c = '\n' then if behindTag then some { r with spot := .line } else none
      else if flavor = .jsx ∧ c = '\x7b' then some { r with spot := .braces [] }
      else if flavor = .jsx ∧ c = '\x7d' then none
      else some (behindChar r.tokens c)
  | .line =>
      if c = ' ' then some r
      else if c = '<' then some { r with spot := .bracket }
      else none
  | .entity chars =>
      if c = ';' then (entity? chars).map (behindChar r.tokens)
      else some { r with spot := .entity (chars ++ [c]) }
  | .braces chars =>
      if chars.length < 3 then some { r with spot := .braces (chars ++ [c]) }
      else (quotedBrace? (chars ++ [c])).map (behindChar r.tokens)
  | .bracket =>
      if c = '/' then some { r with spot := .closing [] }
      else if isNameChar c then some { r with spot := .name [c] }
      -- only a fragment has no name
      else if flavor = .jsx ∧ c = '>' then some (behindOpening r.tokens (Tag.named ""))
      else none
  | .name chars =>
      if isNameChar c then some { r with spot := .name (chars ++ [c]) }
      else stepTag r.tokens (Tag.named (String.ofList chars)) c
  | .gap tag =>
      if isNameChar c then some { r with spot := .key tag [c] }
      else if flavor = .jsx ∧ c = '/' then some { r with spot := .slash tag }
      else none
  | .slash tag => if c = '>' then some (behindEmpty r.tokens tag) else none
  | .key tag chars =>
      if isNameChar c then some { r with spot := .key tag (chars ++ [c]) }
      else if c = '=' then some { r with spot := .equals tag (String.ofList chars) }
      else none
  | .equals tag name =>
      if c = '"' then some { r with spot := .value tag name [] } else none
  | .value tag name chars =>
      if c = '"' then
        some { r with spot := .quote (withAttribute flavor tag (name, String.ofList chars)) }
      else if c = '&' then some { r with spot := .valueEntity tag name chars [] }
      else some { r with spot := .value tag name (chars ++ [c]) }
  | .valueEntity tag name chars entity =>
      if c = ';' then
        (entity? entity).map fun c => { r with spot := .value tag name (chars ++ [c]) }
      else some { r with spot := .valueEntity tag name chars (entity ++ [c]) }
  | .quote tag => stepTag r.tokens tag c
  | .closing chars =>
      if isNameChar c then some { r with spot := .closing (chars ++ [c]) }
      else if c = '>' then some ⟨r.tokens ++ [.closes (String.ofList chars)], .content true⟩
      else none

/-- The reader after some more characters. -/
def run (r : Scanner) (cs : List Char) : Option Scanner := cs.foldlM (step flavor) r

theorem run_nil (r : Scanner) : r.run flavor [] = some r := rfl

theorem run_cons (r : Scanner) (c : Char) (cs : List Char) :
    r.run flavor (c :: cs) = (r.step flavor c).bind fun r => r.run flavor cs := List.foldlM_cons

theorem run_append (r : Scanner) (cs ds : List Char) :
    r.run flavor (cs ++ ds) = (r.run flavor cs).bind fun r => r.run flavor ds := List.foldlM_append

end Scanner

/-- The tokens of a text, if the text is markup as far as its tags go. -/
def scan (flavor : Flavor) (text : String) : Option (List Token) :=
  match (Scanner.mk [] .line).run flavor text.toList with
  | some ⟨tokens, .content _⟩ => some tokens
  | some ⟨tokens, .line⟩ => some tokens
  | _ => none

/-! ## Trees -/

/-- What is known of a forest from some token on: the trees that stand there, and for each closing
tag around them, the innermost first, its name and the trees behind it. -/
structure Ending where
  trees : List Markup
  around : List (String × List Markup)
  deriving Repr, Inhabited

/-- One token in front of what is known. An opening tag belongs to the innermost closing tag. -/
def Ending.before (e : Ending) : Token → Option Ending
  | .char c => some { e with trees := prependText [c] e.trees }
  | .closes name => some ⟨[], (name, e.trees) :: e.around⟩
  | .opens tag =>
      match e.around with
      | (name, behind) :: around =>
          if name = tag.name then some ⟨.element tag e.trees :: behind, around⟩ else none
      | [] => none

/-- What some tokens say of the forest that they end. -/
def ending : List Token → Option Ending
  | [] => some ⟨[], []⟩
  | token :: rest => (ending rest).bind fun e => e.before token

/-- The forest of a text of markup. -/
def read (flavor : Flavor) (text : String) : Option (List Markup) :=
  match (scan flavor text).bind ending with
  | some ⟨trees, []⟩ => some trees
  | _ => none

/-! ## The tokens of a forest -/

mutual

/-- The tokens of a piece of markup. -/
def tokens : Markup → List Token
  | .text content => (unifyBreaks content.toList).map .char
  | .element tag children => .opens tag :: (tokensIn children ++ [.closes tag.name])

/-- The tokens of some pieces of markup. -/
def tokensIn : List Markup → List Token
  | [] => []
  | m :: rest => m.tokens ++ tokensIn rest

end

/-- The tokens of a piece of markup are read as the piece, whatever stands behind it. -/
def ReadsBack (m : Markup) : Prop :=
  ∀ ts, ending (m.tokens ++ ts) = (ending ts).map fun e => { e with trees := m.merge e.trees }

theorem unifyBreaks_ne_nil {cs : List Char} (h : cs ≠ []) : unifyBreaks cs ≠ [] := by
  fun_cases unifyBreaks cs with
  | case1 => exact absurd rfl h
  | case2 => simp
  | case3 => simp

theorem ending_chars {cs : List Char} (h : cs ≠ []) (ts : List Token) :
    ending (cs.map .char ++ ts) =
      (ending ts).map fun e => { e with trees := prependText cs e.trees } := by
  induction cs with
  | nil => exact absurd rfl h
  | cons c cs ih =>
      cases cs with
      | nil => cases hts : ending ts <;> simp [ending, Ending.before, hts]
      | cons d cs =>
          rw [List.map_cons, List.cons_append, ending, ih (List.cons_ne_nil d cs)]
          cases ending ts with
          | none => rfl
          | some e => simp [Ending.before, prependText_append]

theorem readsBack_text {content : String} (h : content ≠ "") : ReadsBack (.text content) := by
  intro ts
  have hne : content.toList ≠ [] := fun hnil => h (String.toList_inj.1 hnil)
  rw [tokens, ending_chars (unifyBreaks_ne_nil hne)]
  rfl

theorem ending_tokensIn {ms : List Markup} (h : ∀ m ∈ ms, m.ReadsBack) (ts : List Token) :
    ending (tokensIn ms ++ ts) =
      (ending ts).map fun e => { e with trees := mergeIn ms e.trees } := by
  induction ms with
  | nil => simp [tokensIn, mergeIn]
  | cons m rest ih =>
      rw [List.forall_mem_cons] at h
      rw [tokensIn, List.append_assoc, h.1, ih h.2, Option.map_map]
      rfl

theorem readsBack_element {tag : Tag} {children : List Markup}
    (h : ∀ m ∈ children, m.ReadsBack) : ReadsBack (.element tag children) := by
  intro ts
  rw [tokens, List.cons_append, List.append_assoc, ending, ending_tokensIn h,
    List.singleton_append, ending]
  cases ending ts with
  | none => rfl
  | some e => simp [Ending.before, merge]

/-- A text is read as the forest whose tokens it has. -/
theorem read_of_scan {flavor : Flavor} {text : String} {roots : List Markup}
    (hscan : scan flavor text = some (tokensIn roots)) (h : ∀ m ∈ roots, m.ReadsBack) :
    read flavor text = some (merged roots) := by
  have hending := ending_tokensIn h []
  rw [List.append_nil] at hending
  rw [read, hscan, Option.bind_some, hending]
  rfl

end SceneMarkup.Markup
