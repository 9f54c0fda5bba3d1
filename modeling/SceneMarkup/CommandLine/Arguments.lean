/-
  SceneMarkup/CommandLine/Arguments.lean --- the words of a command line as a request.

  WHAT THIS FILE IS FOR.  The first word that is no flag names a command, and the words
  after it are the command's own.  Each word is taken in turn; a flag with a value takes
  it from its own word or waits for the next one.  What cannot be understood is a fault
  of usage, about which nothing more is said.
-/
import SceneMarkup.Markup.Escape

set_option autoImplicit false

namespace SceneMarkup.CommandLine

/-! ## Flags -/

/-- Where a word stands: before the command, or after one. -/
inductive Level where
  | program
  | compile
  | fileKey
  deriving DecidableEq, Repr, Inhabited

/-- What a word that begins with a hyphen can ask for. -/
inductive Flag where
  | verbose
  | version
  | outDir
  | name
  | flavor
  | classStart
  | root
  | omitHidden
  | nodeIds
  | json
  | config
  deriving DecidableEq, Repr, Inhabited

namespace Flag

/-- Whether a flag has a value. -/
def takesValue : Flag → Bool
  | .outDir | .name | .flavor | .classStart | .root | .config => true
  | .verbose | .version | .omitHidden | .nodeIds | .json => false

/-- Whether the value of a flag is a path, which is not empty. -/
def isPath : Flag → Bool
  | .outDir | .config => true
  | _ => false

/-- Whether a flag may stand at a level. -/
def allowedAt : Level → Flag → Bool
  | _, .verbose => true
  | level, .version => level == .program
  | level, _ => level == .compile

/-- The flag with a long name. -/
def ofName? : String → Option Flag
  | "verbose" => some .verbose
  | "version" => some .version
  | "out-dir" => some .outDir
  | "name" => some .name
  | "flavor" => some .flavor
  | "prefix" => some .classStart
  | "root" => some .root
  | "omit-hidden" => some .omitHidden
  | "node-ids" => some .nodeIds
  | "json" => some .json
  | "config" => some .config
  | _ => none

/-- The flag with a name of one letter. -/
def ofLetter? : Char → Option Flag
  | 'v' => some .verbose
  | 'V' => some .version
  | 'o' => some .outDir
  | _ => none

end Flag

/-! ## Reading words -/

/-- What was read so far: the flags with their values, the other words, the flag that waits for its
value, and whether every further word is taken as it is. -/
structure Scan where
  given : List (Flag × String)
  words : List String
  waiting : Option Flag
  plain : Bool
  deriving DecidableEq, Repr, Inhabited

namespace Scan

/-- Nothing read. -/
def empty : Scan := ⟨[], [], none, false⟩

/-- Whether a flag was given. -/
def has (scan : Scan) (flag : Flag) : Bool := (scan.given.lookup flag).isSome

/-- Adds a flag with its value; a flag is given only once. -/
def add (scan : Scan) (flag : Flag) (value : String) : Option Scan :=
  if scan.has flag || (flag.isPath && value.isEmpty) then none
  else some { scan with given := (flag, value) :: scan.given, waiting := none }

/-- A flag whose value stands in the same word, if it has one there. -/
def addAttached (scan : Scan) (flag : Flag) (value : Option String) : Option Scan :=
  match flag.takesValue, value with
  | true, some value => scan.add flag value
  | true, none => if scan.has flag then none else some { scan with waiting := some flag }
  | false, none => scan.add flag ""
  | false, some _ => none

/-- A word that begins with two hyphens, without them. -/
def long (scan : Scan) (level : Level) (body : List Char) : Option Scan := do
  let flag ← Flag.ofName? (String.ofList (body.takeWhile (· != '=')))
  let value := match body.dropWhile (· != '=') with
    | [] => none
    | _ :: value => some (String.ofList value)
  if flag.allowedAt level then scan.addAttached flag value else none

/-- The value of a flag of one letter that stands in the same word. -/
def letterValue? : List Char → Option String
  | [] => none
  | '=' :: value => some (String.ofList value)
  | value => some (String.ofList value)

/-- A word that begins with one hyphen, without it: letters, of which one with a value or one that
asks for the version is the last. -/
def letters (scan : Scan) (level : Level) : List Char → Option Scan
  | [] => some scan
  | c :: rest => do
      let flag ← Flag.ofLetter? c
      if !flag.allowedAt level then none
      else if flag.takesValue then scan.addAttached flag (letterValue? rest)
      else if flag == .version then scan.add flag ""
      else letters (← scan.add flag "") level rest

/-- Whether a word begins with a hyphen and has more to it. -/
def isFlag (word : String) : Bool :=
  match word.toList with
  | '-' :: _ :: _ => true
  | _ => false

/-- Takes a word at a level. -/
def step (level : Level) (scan : Scan) (word : String) : Option Scan :=
  if scan.plain then some { scan with words := scan.words ++ [word] }
  else match scan.waiting with
    | some flag => if isFlag word then none else scan.add flag word
    | none =>
        match word.toList with
        | ['-', '-'] => some { scan with plain := true }
        | '-' :: '-' :: body => scan.long level body
        | '-' :: c :: rest => scan.letters level (c :: rest)
        | _ => some { scan with words := scan.words ++ [word] }

end Scan

/-- The flags and the only other word at a level. -/
def oneWord (level : Level) (words : List String) : Option (Scan × String) := do
  let scan ← words.foldlM (Scan.step level) .empty
  match scan.waiting, scan.words with
  | none, [word] => some (scan, word)
  | _, _ => none

/-! ## Requests -/

/-- How a document is to be compiled. -/
structure CompileArguments where
  input : String
  outDir : Option String
  name : Option String
  flavor : Option Flavor
  classStart : Option String
  root : Option String
  omitHidden : Bool
  nodeIds : Bool
  json : Bool
  config : Option String
  deriving DecidableEq, Repr, Inhabited

/-- What is asked for. -/
inductive Request where
  | version
  | compile (arguments : CompileArguments)
  | fileKey (link : String)
  deriving DecidableEq, Repr, Inhabited

/-- The flavor that a user names, if one is named. -/
def flavorOf (text : Option String) : Option (Option Flavor) :=
  match text with
  | none => some none
  | some text => (Flavor.ofUserName text).toOption.map some

/-- The words after the command to compile. -/
def CompileArguments.ofWords? (words : List String) : Option CompileArguments := do
  let (scan, input) ← oneWord .compile words
  let value := fun flag => scan.given.lookup flag
  let flavor ← flavorOf (value .flavor)
  if input.isEmpty then none
  else
    return {
      input
      outDir := value .outDir
      name := value .name
      flavor
      classStart := value .classStart
      root := value .root
      omitHidden := scan.has .omitHidden
      nodeIds := scan.has .nodeIds
      json := scan.has .json
      config := value .config }

/-- The words of a command line, behind those already read. -/
def requestAfter (scan : Scan) : List String → Option Request
  | [] => none
  | "compile" :: rest => (CompileArguments.ofWords? rest).map .compile
  | "file-key" :: rest => (oneWord .fileKey rest).map fun (_, link) => .fileKey link
  | word :: rest => do
      let scan ← scan.step .program word
      if scan.has .version then some .version
      else if scan.plain || !scan.words.isEmpty then none
      else requestAfter scan rest

/-- The request that a command line makes, if it can be understood. -/
def Request.ofWords? (words : List String) : Option Request := requestAfter .empty words

end SceneMarkup.CommandLine
