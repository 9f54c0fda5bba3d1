/-
  SceneMarkup/Json/Decode.lean --- typed data from JSON values, with the first
  mismatch.

  WHAT THIS FILE IS FOR.  A structure is described once, by its fields in order of
  declaration (`Schema`), and read from an object or from a list: the fields of an
  object are visited in the object's order, the items of a list in the schema's.
-/
import SceneMarkup.Json.Writer
import SceneMarkup.Text.Visible

set_option autoImplicit false

namespace SceneMarkup.Json

/-! ## Mismatches -/

/-- Why a value is not of the type that is wanted. -/
inductive Mismatch where
  | wrongType (got : Value) (want : String)
  | wrongInteger (got : Int) (want : String)
  | manyKeys
  | missingField (name : String)
  | shortList (length : Nat) (name : String) (size : Nat)
  | longList (length : Nat)
  | noVariant (union : String)
  | unknownVariant (tag : String) (choices : String)
  deriving Repr, Inhabited

/-- How a message names a value of the wrong type. -/
def Value.described : Value → String
  | .null => "null"
  | .bool b => "boolean `" ++ (if b then "true" else "false") ++ "`"
  | .number (.integer i) => "integer `" ++ toString i ++ "`"
  | .number (.float x) => "floating point `" ++ Decimal.json x ++ "`"
  | .string s => "string " ++ Text.visibleQuoted s
  | .array _ => "sequence"
  | .object _ => "map"

/-- The wording of a mismatch. -/
def Mismatch.message : Mismatch → String
  | .wrongType got want => "invalid type: " ++ got.described ++ ", expected " ++ want
  | .wrongInteger got want => "invalid value: integer `" ++ toString got ++ "`, expected " ++ want
  | .manyKeys => "invalid value: map, expected map with a single key"
  | .missingField name => "missing field `" ++ name ++ "`"
  | .shortList length name size =>
      "invalid length " ++ toString length ++ ", expected struct " ++ name ++ " with " ++
        toString size ++ " elements"
  | .longList length =>
      "invalid length " ++ toString length ++ ", expected fewer elements in array"
  | .noVariant union => "data did not match any variant of untagged enum " ++ union
  | .unknownVariant tag choices => "unknown variant `" ++ tag ++ "`, expected " ++ choices

/-- A decoder of values. -/
abbrev Decoder (α : Type) : Type := Value → Except Mismatch α

/-! ## Single values -/

/-- A text. -/
def string : Decoder String
  | .string s => .ok s
  | v => .error (.wrongType v "a string")

/-- A truth value. -/
def bool : Decoder Bool
  | .bool b => .ok b
  | v => .error (.wrongType v "a boolean")

/-- A number as a float. -/
def Number.toFloat : Number → Float
  | .integer i => Float.ofInt i
  | .float x => x

/-- A float, of either spelling. -/
def float : Decoder Float
  | .number n => .ok n.toFloat
  | v => .error (.wrongType v "f64")

/-- A natural number below `2 ^ bits`, of a type called `want`. -/
def natural (bits : Nat) (want : String) : Decoder Nat
  | .number (.integer i) =>
      if 0 ≤ i ∧ i.toNat < Nat.pow 2 bits then .ok i.toNat else .error (.wrongInteger i want)
  | v => .error (.wrongType v want)

/-- A list of values of one type. -/
def list {α : Type} (item : Decoder α) : Decoder (List α)
  | .array items => items.mapM item
  | v => .error (.wrongType v "a sequence")

/-- The fields of an object whose values are of one type, in the object's order. -/
def mapping {α : Type} (item : Decoder α) : Decoder (List (String × α))
  | .object fields => fields.mapM fun (k, v) => do return (k, ← item v)
  | v => .error (.wrongType v "a map")

/-- A value, or null for none. -/
def optional {α : Type} (item : Decoder α) : Decoder (Option α)
  | .null => .ok none
  | v => (item v).map some

/-- One of several tags, or an object whose only field is a tag with a null. -/
def variant {α : Type} (choices : String) (ofTag? : String → Option α) : Decoder α
  | .string tag =>
      match ofTag? tag with
      | some a => .ok a
      | none => .error (.unknownVariant tag choices)
  | .object [(tag, content)] =>
      match ofTag? tag, content with
      | none, _ => .error (.unknownVariant tag choices)
      | some a, .null => .ok a
      | some _, content => .error (.wrongType content "unit")
  | .object _ => .error .manyKeys
  | v => .error (.wrongType v "string or map")

/-! ## Structures -/

/-- What it means that a structure's field is absent. -/
inductive Absence where
  /-- an error -/
  | error
  /-- nothing in an object, but a list must hold the field -/
  | listError
  /-- nothing -/
  | allowed
  deriving DecidableEq, Repr, Inhabited

/-- A field of a structure: its key, and how its value changes what was read so far. -/
structure Field (σ : Type) where
  key : String
  absence : Absence
  read : Value → σ → Except Mismatch σ

/-- A structure: its name in messages, its fields in order of declaration, and the value with
no field set. -/
structure Schema (σ : Type) where
  name : String
  fields : List (Field σ)
  start : σ

/-- A field that an object must have. -/
def required {σ α : Type} (key : String) (decode : Decoder α) (set : α → σ → σ) : Field σ :=
  ⟨key, .error, fun v s => do return set (← decode v) s⟩

/-- A field that may be null or absent. -/
def nullable {σ α : Type} (key : String) (decode : Decoder α) (set : Option α → σ → σ) :
    Field σ :=
  ⟨key, .listError, fun v s => do return set (← optional decode v) s⟩

/-- A field that may be absent. -/
def defaulted {σ α : Type} (key : String) (decode : Decoder α) (set : α → σ → σ) : Field σ :=
  ⟨key, .allowed, fun v s => do return set (← decode v) s⟩

namespace Schema

variable {σ : Type}

/-- Reads one field of an object; an unknown key changes nothing. -/
def readField (schema : Schema σ) (s : σ) (field : String × Value) : Except Mismatch σ :=
  match schema.fields.find? (·.key == field.1) with
  | some f => f.read field.2 s
  | none => .ok s

/-- Reads the fields of an object, then looks for the first that is missing. -/
def readObject (schema : Schema σ) (fields : Fields) : Except Mismatch σ := do
  let s ← fields.foldlM schema.readField schema.start
  match schema.fields.find? fun f => f.absence == .error && !fields.has f.key with
  | some f => .error (.missingField f.key)
  | none => return s

/-- Reads fields from the items of a list of `length` items, from the field at `index` on. -/
def readItems (schema : Schema σ) (length : Nat) :
    List (Field σ) → List Value → Nat → σ → Except Mismatch σ
  | [], [], _, s => .ok s
  | [], _ :: _, _, _ => .error (.longList length)
  | f :: fs, [], index, s =>
      if f.absence == .allowed then schema.readItems length fs [] (index + 1) s
      else .error (.shortList index schema.name schema.fields.length)
  | f :: fs, v :: vs, index, s => do
      let s ← f.read v s
      schema.readItems length fs vs (index + 1) s

/-- Reads a structure from an object or from a list. -/
def decode (schema : Schema σ) : Decoder σ
  | .object fields => schema.readObject fields
  | .array items => schema.readItems items.length schema.fields items 0 schema.start
  | v => .error (.wrongType v ("struct " ++ schema.name))

end Schema

end SceneMarkup.Json
